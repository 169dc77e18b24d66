import Recto.Server.MemberBindings

/-!
# The host's own reset

`recto bootloader owner-reset` on a store whose id is not sealed and that no process
serves: the host removes its last owner phone, or every owner phone it names, and
reopens genesis. Every phone leaves in a write of its own, so a fault may end the
command between two of them; `progress` is what it says of that.
-/

namespace Recto
namespace Server

open Genesis Faulty

/-- What the command is called with. -/
structure ResetArgs where
  slot : Option OwnerSlot
  confirm : Option String
  everyOwnerLost : Bool
  reopenGenesis : Bool
  deriving DecidableEq, Repr

/-- A phone in an owner slot, with its ref. -/
structure OwnerRow where
  phone : PhoneRegistration
  ref : String
  slot : OwnerSlot
  deriving DecidableEq

/-- The ref and the slot, as they are printed. -/
def OwnerRow.seat (row : OwnerRow) : String × OwnerSlot := (row.ref, row.slot)

inductive ResetStep where
  | void
  | revoke
  deriving DecidableEq, Repr

/-- `progress` -/
structure Progress where
  closed : Bool
  removed : List (String × OwnerSlot)
  removing : Option (String × OwnerSlot)
  step : Option ResetStep
  held : List String
  writing : Bool
  deriving DecidableEq, Repr

def Progress.start : Progress := ⟨false, [], none, none, [], false⟩

/-- Why nothing is removed. -/
inductive ResetRefused where
  | serverRunning
  | chainUnreadable (e : ChainError)
  | sealed (id : String)
  | nothingNamed
  | ownersRemain (refs : List String)
  | notTogether
  | notHeld (slot : OwnerSlot) (confirm : String) (owners : Bool)
  | notLast (ref : String) (remaining : ℕ)
  | lastOwner (ref : String)
  | notRemoved (phoneId : String)
  | takesNoSlot
  | needsReopen
  | needsConfirm
  | emptyItem
  | noOwner
  | notEveryOwner (held : List String)
  deriving DecidableEq, Repr

/-- What a command whose store failed says landed. -/
inductive Landed where
  | midway (removed : List (String × OwnerSlot)) (failed : String × OwnerSlot)
      (step : Option ResetStep) (held : List String)
  | notRemoved (failed : String × OwnerSlot) (step : Option ResetStep)
  | notReopened (removed : List (String × OwnerSlot))
  | onlyClosed
  | nothing
  deriving DecidableEq, Repr

def Progress.landed (p : Progress) : Landed :=
  match p.removing with
  | some failed => if p.removed ≠ [] then .midway p.removed failed p.step p.held
      else .notRemoved failed p.step
  | none => if p.removed ≠ [] then .notReopened p.removed
      else if p.closed then .onlyClosed else .nothing

/-- `",".join(refs)` -/
def joinRefs (refs : List String) : String :=
  String.ofList ([','].intercalate (refs.map chars))

/-- The command that the report tells the operator to run. -/
def Landed.advised : Landed → Option ResetArgs
  | .midway _ _ _ held => some ⟨none, some (joinRefs held), true, true⟩
  | .notReopened _ => some ⟨none, none, false, true⟩
  | _ => none

inductive ResetEnd where
  | done
  | refused (why : ResetRefused)
  | failed (landed : Landed)
  deriving DecidableEq, Repr

/-- The store and what the command notes of its own progress. -/
structure HostAct where
  store : Store
  progress : Progress

abbrev OnHost := Faulty HostAct Refusal

def onStore {α : Type} (m : Served α) : OnHost α :=
  Faulty.zoom HostAct.store (fun act s => { act with store := s }) id m

def note (f : Progress → Progress) : OnHost PUnit :=
  Faulty.modify fun act => { act with progress := f act.progress }

/-- `_norm_ref` -/
def normRef (ref : String) : String := String.ofList ((chars ref).filter fun c => !isSpace c)

/-- The items of `--confirm`. -/
def confirmItems (confirm : String) : List String :=
  ((chars confirm).splitOn ',').map fun item => normRef (String.ofList item)

section

variable (env : Host)

def rowOf (p : PhoneRegistration) : Option OwnerRow :=
  match p.slot with
  | .owner slot => some ⟨p, phoneRef env p.publicKey, slot⟩
  | .member => none

/-- `_owner_rows` -/
def ownerRows (s : Store) : List OwnerRow := s.listPhones.filterMap (rowOf env)

/-- Its approvals go first: a failure leaves it held. -/
def removeOwner (row : OwnerRow) : OnHost Bool := do
  note fun p => { p with removing := some row.seat, step := some .void }
  onStore (voidOwnerEnrollsFor row.phone.phoneId)
  note fun p => { p with step := some .revoke }
  let removed ← onStore (revokePhone row.phone.phoneId)
  if removed then
    note fun p => { p with removed := p.removed ++ [row.seat], removing := none }
    pure true
  else pure false

def writeClosed : OnHost PUnit := do
  note fun p => { p with writing := true }
  onStore (setOwnerGenesis .closed)
  note fun p => { p with closed := true }

/-- The loop of `_owner_reset_every_owner_lost` over its targets. -/
def removeEach : List OwnerRow → OnHost ResetEnd
  | [] => do
      onStore (setOwnerGenesis .opened)
      pure .done
  | row :: rest => do
      note fun p => { p with held := ((row :: rest).map OwnerRow.ref).eraseDups }
      let removed ← removeOwner row
      if removed then removeEach rest else pure (.refused (.notRemoved row.phone.phoneId))

/-- Every owner phone is named, once, and nothing else is. -/
def NamesEvery (items : List String) (rows : List OwnerRow) : Prop :=
  (∀ row ∈ rows, row.ref ∈ items ∨ row.phone.phoneId ∈ items) ∧ items.Nodup ∧
    ∀ item ∈ items, ∃ row ∈ rows, item = row.ref ∨ item = row.phone.phoneId

instance (items : List String) (rows : List OwnerRow) : Decidable (NamesEvery items rows) :=
  inferInstanceAs (Decidable (_ ∧ _ ∧ _))

def ownerResetEveryOwnerLost (args : ResetArgs) (rows : List OwnerRow) : OnHost ResetEnd :=
  if args.slot ≠ none then pure (.refused .takesNoSlot)
  else if !args.reopenGenesis then pure (.refused .needsReopen)
  else match orNone args.confirm with
    | none => pure (.refused .needsConfirm)
    | some confirm =>
        let items := confirmItems confirm
        if "" ∈ items then pure (.refused .emptyItem)
        else if rows = [] then pure (.refused .noOwner)
        else if ¬NamesEvery items rows then
          pure (.refused (.notEveryOwner ((rows.map OwnerRow.ref).eraseDups.mergeSort (· ≤ ·))))
        else do
          writeClosed
          removeEach rows

/-- Without `--slot` and `--confirm` genesis is only reopened. -/
def reopenAlone (args : ResetArgs) (rows : List OwnerRow) : OnHost ResetEnd :=
  if !args.reopenGenesis then pure (.refused .nothingNamed)
  else if rows ≠ [] then pure (.refused (.ownersRemain ((rows.map OwnerRow.ref).mergeSort (· ≤ ·))))
  else do
    note fun p => { p with writing := true }
    onStore (setOwnerGenesis .opened)
    pure .done

/-- The host removes the last owner phone only. -/
def removeLast (args : ResetArgs) (slot : OwnerSlot) (confirm : String) (rows : List OwnerRow) :
    OnHost ResetEnd :=
  match rows.find? fun row => row.ref = confirm ∨ row.phone.phoneId = confirm with
  | none => pure (.refused (.notHeld slot confirm (decide (rows ≠ []))))
  | some target =>
      if target.slot ≠ slot then pure (.refused (.notHeld slot confirm (decide (rows ≠ []))))
      else
        let remaining := rows.filter fun row => row.phone.phoneId ≠ target.phone.phoneId
        if remaining ≠ [] then pure (.refused (.notLast target.ref remaining.length))
        else if !args.reopenGenesis then pure (.refused (.lastOwner target.ref))
        else do
          writeClosed
          let removed ← removeOwner target
          if removed then do
            onStore (setOwnerGenesis .opened)
            pure .done
          else pure (.refused (.notRemoved target.phone.phoneId))

/-- `_owner_reset_locked` -/
def ownerResetLocked (args : ResetArgs) : OnHost ResetEnd := do
  let act ← Faulty.get
  let rows := ownerRows env act.store
  if args.everyOwnerLost then ownerResetEveryOwnerLost args rows
  else match args.slot, args.confirm with
    | none, none => reopenAlone args rows
    | some slot, some confirm => removeLast args slot (normRef confirm) rows
    | _, _ => pure (.refused .notTogether)

/-- `_cmd_bootloader_owner_reset`, over the files: a process that serves them holds their lock. -/
def cmdBootloaderOwnerReset (args : ResetArgs) : OnHost ResetEnd := do
  let act ← Faulty.get
  if act.store.up then pure (.refused .serverRunning)
  else do
    onStore (Faulty.modify Store.reloaded)
    match genesisChainState env.toPrimitives act.store.chain with
    | .error (.chain e) => pure (.refused (.chainUnreadable e))
    | .error (.python e) => Faulty.raise (.store (.python e))
    | .ok cs =>
        match cs >>= ChainState.sealedId with
        | some id => pure (.refused (.sealed id))
        | none => (ownerResetLocked env args).handle fun _ => do
            let act ← Faulty.get
            pure (.failed act.progress.landed)

end

/-! ## What each call does -/

section

variable {env : Host} {F : Fault → Prop} {s : Store} {act : HostAct}

/-- What the runs speak of beside the registry and the marker. -/
def Store.frame (s : Store) : Dict String TopPlaneRecord × ChainStore ×
    Dict String (ℤ × Option (String × String)) × Dict String (ℤ × Option (String × String)) ×
    Bool :=
  (s.topPlane, s.chain, s.memberPairingCodes, s.memberChallenges, s.up)

def Store.lasting (s : Store) := (s.phones, s.ownerGenesis, s.frame)

def Stops (F : Fault → Prop) : Prop := F .stopsBefore ∨ F .stopsAfter

/-- The program leaves what lasts alone, raises nothing, and ends early by a fault only. -/
def Settles {α : Type} (F : Fault → Prop) (m : Served α) : Prop :=
  ∀ s, m.Sat F s ⟨fun _ s' => s'.lasting = s.lasting, fun _ _ => False,
    fun s' => Stops F ∧ s'.lasting = s.lasting⟩

namespace Settles

variable {α β : Type}

theorem pure (a : α) : Settles F (Pure.pure a : Served α) := fun _ => .pure rfl

theorem get : Settles F (Faulty.get : Served Store) := fun _ => .get rfl

theorem modify {f : Store → Store} (h : ∀ s, (f s).lasting = s.lasting) :
    Settles F (Faulty.modify f : Served PUnit) := fun s => .modify (h s)

/-- A write whose failure is logged. -/
theorem logged {f : Store → Store} {e : Refusal} (h : ∀ s, (f s).lasting = s.lasting) :
    Settles F ((Faulty.write f e : Served PUnit).handle fun _ => Pure.pure ⟨⟩) :=
  fun s => .handle (.write (h s) (fun _ => .pure rfl) (fun hf => ⟨.inl hf, rfl⟩)
    fun hf => ⟨.inr hf, h s⟩)

theorem bindSat {m : Served α} {f : α → Served β} {Q : Post Store Refusal β} (hm : Settles F m)
    (hf : ∀ a s', s'.lasting = s.lasting → (f a).Sat F s' Q)
    (hstopped : ∀ s', Stops F → s'.lasting = s.lasting → Q.stopped s') :
    (m >>= f).Sat F s Q :=
  .bind ((hm s).mono (fun a s' h => hf a s' h) (fun _ _ h => h.elim)
    fun s' h => hstopped s' h.1 h.2)

theorem bind {m : Served α} {f : α → Served β} (hm : Settles F m) (hf : ∀ a, Settles F (f a)) :
    Settles F (m >>= f) :=
  fun _ => hm.bindSat (fun a s' h => (hf a s').mono (fun _ _ h' => h'.trans h) (fun _ _ h' => h')
    fun _ h' => ⟨h'.1, h'.2.trans h⟩) fun _ hstops h => ⟨hstops, h⟩

theorem ite {p : Prop} [Decidable p] {m n : Served α} (hm : Settles F m) (hn : Settles F n) :
    Settles F (if p then m else n) := by
  split
  · exact hm
  · exact hn

theorem forEach {f : β → Served PUnit} (hf : ∀ x, Settles F (f x)) (xs : List β) :
    Settles F (Faulty.forEach f xs) := by
  induction xs with
  | nil => exact .pure _
  | cons x xs ih => exact .bind (hf x) fun _ => ih

end Settles

theorem takePending_settles (card : String) :
    Settles F ((takePending card).handle fun _ => pure ⟨⟩) := by
  intro s
  refine .handle (.bindGet (.ite (fun _ => ?_) fun _ => .pure rfl))
  exact .bindModify (.write rfl (fun _ => .pure rfl) (fun h => ⟨.inl h, rfl⟩)
    fun h => ⟨.inr h, rfl⟩)

theorem voidOwnerEnrollsFor_settles (phoneId : String) :
    Settles F (voidOwnerEnrollsFor phoneId) := by
  refine .bind .get fun _ => .forEach (fun _ => ?_) _
  exact .ite (.bind (.modify fun _ => rfl) fun _ => .forEach takePending_settles _) (.pure _)

theorem saveAfterPhones_settles : Settles F saveAfterPhones :=
  .bind (.logged fun _ => rfl) fun _ => .logged fun _ => rfl

theorem revokePhone_sat {phoneId : String} (h : phoneId ∈ s.phones) :
    (revokePhone phoneId).Sat F s
      ⟨fun removed s' => removed = true ∧
          s'.lasting = (s.phones.erase phoneId, s.ownerGenesis, s.frame),
        fun _ s' => F .raises ∧ s'.lasting = s.lasting,
        fun s' => Stops F ∧ (s'.lasting = s.lasting ∨
          s'.lasting = (s.phones.erase phoneId, s.ownerGenesis, s.frame))⟩ := by
  refine .bindGet ?_
  rw [if_pos h]
  refine .bind (.write ?_ (fun hf => ⟨hf, rfl⟩) (fun hf => ⟨.inl hf, .inl rfl⟩)
    fun hf => ⟨.inr hf, .inr rfl⟩)
  refine .bindModify (saveAfterPhones_settles.bindSat (fun _ _ h' => .pure ⟨rfl, h'⟩)
    fun _ hstops h' => ⟨hstops, .inr h'⟩)

theorem onStore_sat {α : Type} {m : Served α} {Q : Post HostAct Refusal α}
    (h : m.Sat F act.store ⟨fun a s => Q.done a { act with store := s },
      fun e s => Q.raised e { act with store := s }, fun s => Q.stopped { act with store := s }⟩) :
    (onStore m).Sat F act Q := .zoom h

theorem setOwnerGenesis_sat {state : OwnerGenesis} {Q : Post HostAct Refusal PUnit}
    (hdone : Q.done ⟨⟩ { act with store := { act.store with ownerGenesis := some state } })
    (hraised : F .raises → ∀ e, Q.raised e act)
    (hbefore : Stops F → Q.stopped act)
    (hafter : Stops F → Q.stopped
      { act with store := { act.store with ownerGenesis := some state } }) :
    (onStore (setOwnerGenesis state)).Sat F act Q :=
  onStore_sat (.write hdone (fun hf => hraised hf _) (fun hf => hbefore (.inl hf))
    fun hf => hafter (.inr hf))

/-- A phone leaves by its own write, and nothing but that write ends the removal early. -/
theorem removeOwner_sat {row : OwnerRow} (h : row.phone.phoneId ∈ act.store.phones) :
    (removeOwner row).Sat F act
      ⟨fun removed act' => removed = true ∧ act'.store.lasting =
            (act.store.phones.erase row.phone.phoneId, act.store.ownerGenesis, act.store.frame) ∧
          act'.progress.closed = act.progress.closed ∧
          act'.progress.removed = act.progress.removed ++ [row.seat] ∧
          act'.progress.removing = none,
        fun _ act' => F .raises ∧ act'.store.lasting = act.store.lasting ∧
          act'.progress = { act.progress with removing := some row.seat, step := some .revoke },
        fun act' => Stops F ∧ (act'.store.lasting = act.store.lasting ∨
          act'.store.lasting = (act.store.phones.erase row.phone.phoneId,
            act.store.ownerGenesis, act.store.frame))⟩ := by
  refine .bindModify (.bind (onStore_sat (((voidOwnerEnrollsFor_settles _) _).mono
    (fun _ s₁ h₁ => ?_) (fun _ _ h => h.elim) fun _ h => ⟨h.1, .inl h.2⟩)))
  have hphones : s₁.phones = act.store.phones := congrArg Prod.fst h₁
  have hrest : (s₁.ownerGenesis, s₁.frame) = (act.store.ownerGenesis, act.store.frame) :=
    congrArg Prod.snd h₁
  refine .bindModify (.bind (onStore_sat ((revokePhone_sat (hphones ▸ h)).mono
    (fun removed s₂ h₂ => ?_) (fun _ _ h₂ => ⟨h₂.1, h₂.2.trans h₁, rfl⟩) fun _ h₂ =>
      ⟨h₂.1, h₂.2.imp (·.trans h₁) fun h => ?_⟩)))
  · obtain ⟨rfl, h₂⟩ := h₂
    dsimp only
    rw [if_pos rfl]
    refine .bindModify (.pure ⟨rfl, ?_, rfl, rfl, rfl⟩)
    rw [h₂, hphones, hrest]
  · rw [h, hphones, hrest]

end

/-! ## The owner rows -/

section

variable {env : Host} {s : Store}

/-- Every phone stands under the ref of its key. -/
def Referred (env : Host) (phones : Dict String PhoneRegistration) : Prop :=
  ∀ ref p, phones.get? ref = some p → p.phoneId = ref ∧ phoneRef env p.publicKey = ref

theorem rowOf_eq_some {p : PhoneRegistration} {row : OwnerRow} :
    rowOf env p = some row ↔
      p.slot = .owner row.slot ∧ row.phone = p ∧ row.ref = phoneRef env p.publicKey := by
  unfold rowOf
  cases hslot : p.slot with
  | member => simp
  | owner slot =>
    constructor
    · rintro ⟨⟩
      exact ⟨rfl, rfl, rfl⟩
    · obtain ⟨phone, ref, slot'⟩ := row
      rintro ⟨h, hphone, href⟩
      dsimp only at h hphone href
      rw [hphone, href, Slot.owner.inj h]

theorem ownerRows_eq_nil : ownerRows env s = [] ↔ s.owners = [] := by
  rw [ownerRows, List.filterMap_eq_nil_iff, Store.owners, List.filter_eq_nil_iff]
  refine forall₂_congr fun p _ => ?_
  have hnone : rowOf env p = none ↔ ¬p.IsOwner := by
    unfold rowOf PhoneRegistration.IsOwner
    cases p.slot <;> simp
  rw [hnone, decide_eq_true_iff]

/-- The rows, by the refs of the registry. -/
theorem ownerRows_eq : ownerRows env s =
    s.phones.keys.filterMap fun ref => (s.phones.get? ref).bind (rowOf env) := by
  rw [ownerRows, Store.listPhones, Dict.values, Dict.keys, List.filterMap_map, List.filterMap_map]
  refine List.filterMap_congr fun item hitem => ?_
  simp [Dict.get?_eq_some_iff.mpr hitem]

variable (hs : Referred env s.phones)

include hs

theorem mem_ownerRows {row : OwnerRow} :
    row ∈ ownerRows env s ↔ s.phones.get? row.ref = some row.phone ∧
      row.phone.slot = .owner row.slot := by
  rw [ownerRows_eq, List.mem_filterMap]
  constructor
  · rintro ⟨ref, -, hrow⟩
    obtain ⟨p, hp, hrow⟩ := Option.bind_eq_some_iff.mp hrow
    obtain ⟨hslot, rfl, href⟩ := rowOf_eq_some.mp hrow
    rw [href, (hs _ _ hp).2]
    exact ⟨hp, hslot⟩
  · rintro ⟨hp, hslot⟩
    exact ⟨row.ref, Dict.mem_keys.mpr (Dict.mem_of_get? hp), Option.bind_eq_some_iff.mpr
      ⟨_, hp, rowOf_eq_some.mpr ⟨hslot, rfl, (hs _ _ hp).2.symm⟩⟩⟩

theorem phoneId_of_mem {row : OwnerRow} (h : row ∈ ownerRows env s) : row.phone.phoneId = row.ref :=
  (hs _ _ ((mem_ownerRows hs).mp h).1).1

theorem nodup_refs : ((ownerRows env s).map OwnerRow.ref).Nodup := by
  rw [ownerRows_eq, List.map_filterMap]
  refine List.Nodup.filterMap (fun ref ref' b hb hb' => ?_) s.phones.nodup_keys
  have hself : ∀ ref : String, b ∈ (((s.phones.get? ref).bind (rowOf env)).map OwnerRow.ref) →
      ref = b := by
    intro ref hb
    obtain ⟨row, hrow, rfl⟩ := Option.map_eq_some_iff.mp hb
    obtain ⟨p, hp, hrow⟩ := Option.bind_eq_some_iff.mp hrow
    obtain ⟨-, -, href⟩ := rowOf_eq_some.mp hrow
    rw [href, (hs _ _ hp).2]
  rw [hself ref hb, hself ref' hb']

end

/-! ## How far a removal comes -/

section

variable (env : Host)

/-- The registry without the refs, and what else lasts as it was. -/
structure Without (s₀ : Store) (gone : List String) (s : Store) : Prop where
  phones : ∀ ref, s.phones.get? ref = if ref ∈ gone then none else s₀.phones.get? ref
  frame : s.frame = s₀.frame
  owners : gone ⊆ (ownerRows env s₀).map OwnerRow.ref

/-- What the report says is so. -/
def Landed.IsSo (s₀ s : Store) : Landed → Prop
  | .midway removed failed _ held =>
      (∀ seat ∈ removed, seat ∈ (ownerRows env s₀).map OwnerRow.seat ∧
        s.phones.get? seat.1 = none) ∧
      failed ∈ (ownerRows env s).map OwnerRow.seat ∧
      (held.Nodup ∧ ∀ ref, ref ∈ held ↔ ref ∈ (ownerRows env s).map OwnerRow.ref) ∧
      s.ownerGenesis = some .closed
  | .notRemoved failed _ =>
      (∀ ref, s.phones.get? ref = s₀.phones.get? ref) ∧
      failed ∈ (ownerRows env s).map OwnerRow.seat ∧ s.ownerGenesis = some .closed
  | .notReopened removed =>
      removed = (ownerRows env s₀).map OwnerRow.seat ∧ s.owners = [] ∧
      s.ownerGenesis = some .closed
  | .onlyClosed =>
      (∀ ref, s.phones.get? ref = s₀.phones.get? ref) ∧ s.ownerGenesis = some .closed
  | .nothing =>
      (∀ ref, s.phones.get? ref = s₀.phones.get? ref) ∧ s.ownerGenesis = s₀.ownerGenesis

/-- The command between two removals. -/
structure Midway (s₀ : Store) (done rest : List OwnerRow) (act : HostAct) : Prop where
  rows : ownerRows env s₀ = done ++ rest
  without : Without env s₀ (done.map OwnerRow.ref) act.store
  marker : act.store.ownerGenesis = some .closed
  closed : act.progress.closed = true
  removed : act.progress.removed = done.map OwnerRow.seat
  removing : act.progress.removing = none

/-- Some owners are gone, and genesis is open where none is left, or was and nothing changed. -/
def Within (s₀ s : Store) : Prop :=
  ∃ gone, Without env s₀ gone s ∧
    (s.ownerGenesis = some .opened →
      (ownerRows env s₀).map OwnerRow.ref ⊆ gone ∨ gone = [] ∧ s₀.ownerGenesis = some .opened)

def Emptied (s₀ s : Store) : Prop :=
  Without env s₀ ((ownerRows env s₀).map OwnerRow.ref) s ∧ s.ownerGenesis = some .opened

/-- How a removal that has closed genesis may end. -/
def removalPost (F : Fault → Prop) (s₀ : Store) : Post HostAct Refusal ResetEnd where
  done ended act := ended = .done ∧ Emptied env s₀ act.store
  raised _ act := F .raises ∧ act.progress.landed.IsSo env s₀ act.store ∧ Within env s₀ act.store
  stopped act := Stops F ∧ Within env s₀ act.store

end

section

variable {env : Host} {F : Fault → Prop} {s₀ s : Store} {act : HostAct}

theorem Without.referred {gone : List String} (h : Without env s₀ gone s)
    (hs₀ : Referred env s₀.phones) : Referred env s.phones := by
  intro ref p hp
  rw [h.phones] at hp
  split at hp
  · cases hp
  · exact hs₀ ref p hp

theorem Without.mem_rows {gone : List String} (h : Without env s₀ gone s)
    (hs₀ : Referred env s₀.phones) {row : OwnerRow} :
    row ∈ ownerRows env s ↔ row ∈ ownerRows env s₀ ∧ row.ref ∉ gone := by
  rw [mem_ownerRows (h.referred hs₀), mem_ownerRows hs₀, h.phones]
  by_cases hgone : row.ref ∈ gone <;> simp [hgone]

/-- Where every owner's ref is gone no owner is left. -/
theorem Without.owners_eq_nil {gone : List String} (h : Without env s₀ gone s)
    (hs₀ : Referred env s₀.phones) (hall : (ownerRows env s₀).map OwnerRow.ref ⊆ gone) :
    s.owners = [] := by
  have hnone : ownerRows env s = [] := by
    refine List.eq_nil_iff_forall_not_mem.mpr fun row hrow => ?_
    obtain ⟨hrow₀, hnot⟩ := (h.mem_rows hs₀).mp hrow
    exact hnot (hall (List.mem_map_of_mem hrow₀))
  exact ownerRows_eq_nil.mp hnone

theorem ownerGenesis_of_lasting {phones : Dict String PhoneRegistration}
    {marker : Option OwnerGenesis} {frame} (h : s.lasting = (phones, marker, frame)) :
    s.ownerGenesis = marker :=
  congrArg (fun v => v.2.1) h

theorem Without.congr {gone : List String} {s' : Store} (h : Without env s₀ gone s)
    (hs' : s'.lasting = s.lasting) : Without env s₀ gone s' := by
  simp only [Store.lasting, Prod.mk.injEq] at hs'
  exact ⟨hs'.1 ▸ h.phones, hs'.2.2.trans h.frame, h.owners⟩

theorem Without.erase {gone : List String} (h : Without env s₀ gone s) {row : OwnerRow}
    (hrow : row ∈ ownerRows env s₀) {marker : Option OwnerGenesis} {s' : Store}
    (hs' : s'.lasting = (s.phones.erase row.ref, marker, s.frame)) :
    Without env s₀ (gone ++ [row.ref]) s' := by
  simp only [Store.lasting, Prod.mk.injEq] at hs'
  refine ⟨fun ref => ?_, hs'.2.2.trans h.frame, List.append_subset.mpr ⟨h.owners, ?_⟩⟩
  · rw [hs'.1, Dict.get?_erase, h.phones]
    by_cases href : ref = row.ref <;> simp [href]
  · simpa using List.mem_map_of_mem hrow

namespace Midway

variable {done rest : List OwnerRow}

theorem within (h : Midway env s₀ done rest act) {s' : Store}
    (hs' : s'.lasting = act.store.lasting) : Within env s₀ s' := by
  refine ⟨_, h.without.congr hs', fun hopen => ?_⟩
  rw [(ownerGenesis_of_lasting hs').trans h.marker] at hopen
  cases hopen

/-- No two owners share a ref, the removed and those ahead together. -/
theorem nodup (h : Midway env s₀ done rest act) (hs₀ : Referred env s₀.phones) :
    (done.map OwnerRow.ref ++ rest.map OwnerRow.ref).Nodup := by
  rw [← List.map_append, ← h.rows]
  exact nodup_refs hs₀

theorem mem_rows (h : Midway env s₀ done rest act) (hs₀ : Referred env s₀.phones) {s' : Store}
    (hs' : s'.lasting = act.store.lasting) {row : OwnerRow} :
    row ∈ ownerRows env s' ↔ row ∈ rest := by
  have hnodup := List.nodup_append.mp (h.nodup hs₀)
  rw [(h.without.congr hs').mem_rows hs₀, h.rows, List.mem_append]
  constructor
  · rintro ⟨hdone | hrest, hnot⟩
    · exact absurd (List.mem_map_of_mem hdone) hnot
    · exact hrest
  · intro hrest
    exact ⟨.inr hrest, fun hdone => hnodup.2.2 _ hdone _ (List.mem_map_of_mem hrest) rfl⟩

end Midway

end

/-! ## Removing -/

section

variable {env : Host} {F : Fault → Prop} {s₀ : Store} {act : HostAct}
  {done rest : List OwnerRow} {row : OwnerRow}

theorem eraseDups_of_nodup {refs : List String} (h : refs.Nodup) : refs.eraseDups = refs := by
  induction refs with
  | nil => rfl
  | cons ref refs ih =>
    obtain ⟨hnot, hrefs⟩ := List.nodup_cons.mp h
    have hkeep : refs.filter (fun b => !b == ref) = refs := by
      refine List.filter_eq_self.mpr fun b hb => ?_
      have hne : b ≠ ref := fun heq => hnot (heq ▸ hb)
      simpa using hne
    rw [List.eraseDups_cons, hkeep, ih hrefs]

/-- A phone whose removal failed is held, and so are those after it. -/
theorem Midway.landed_isSo (h : Midway env s₀ done (row :: rest) act)
    (hs₀ : Referred env s₀.phones)
    (hheld : done ≠ [] → act.progress.held = (row :: rest).map OwnerRow.ref) {act' : HostAct}
    (hstore : act'.store.lasting = act.store.lasting)
    (hprogress : act'.progress =
      { act.progress with removing := some row.seat, step := some .revoke }) :
    act'.progress.landed.IsSo env s₀ act'.store := by
  have hfailed : row.seat ∈ (ownerRows env act'.store).map OwnerRow.seat :=
    List.mem_map_of_mem ((h.mem_rows hs₀ hstore).mpr List.mem_cons_self)
  have hwithout := h.without.congr hstore
  have hmarker : act'.store.ownerGenesis = some .closed :=
    (ownerGenesis_of_lasting hstore).trans h.marker
  rw [hprogress, Progress.landed]
  dsimp only
  rw [h.removed]
  by_cases hdone : done = []
  · subst hdone
    rw [if_neg (by simp)]
    exact ⟨fun ref => by simp [hwithout.phones], hfailed, hmarker⟩
  · rw [if_pos (by simpa using hdone)]
    refine ⟨fun seat hseat => ?_, hfailed, ?_, hmarker⟩
    · obtain ⟨gone, hgone, rfl⟩ := List.mem_map.mp hseat
      refine ⟨List.mem_map_of_mem (h.rows ▸ List.mem_append_left _ hgone), ?_⟩
      exact (hwithout.phones gone.ref).trans (if_pos (List.mem_map_of_mem hgone))
    · rw [hheld hdone]
      refine ⟨(h.nodup hs₀).of_append_right, fun ref => ?_⟩
      simp only [List.mem_map, h.mem_rows hs₀ hstore]

/-- One phone leaves, and what follows goes on from there. -/
theorem Midway.removeOwner_sat (h : Midway env s₀ done (row :: rest) act)
    (hs₀ : Referred env s₀.phones)
    (hheld : done ≠ [] → act.progress.held = (row :: rest).map OwnerRow.ref)
    {f : Bool → OnHost ResetEnd}
    (hf : ∀ act', Midway env s₀ (done ++ [row]) rest act' →
      (f true).Sat F act' (removalPost env F s₀)) :
    (removeOwner row >>= f).Sat F act (removalPost env F s₀) := by
  have hrow : row ∈ ownerRows env act.store := (h.mem_rows hs₀ rfl).mpr List.mem_cons_self
  have hrow₀ : row ∈ ownerRows env s₀ := ((h.without.mem_rows hs₀).mp hrow).1
  have hid : row.phone.phoneId = row.ref := phoneId_of_mem hs₀ hrow₀
  have hmem : row.phone.phoneId ∈ act.store.phones :=
    hid ▸ Dict.mem_of_get? ((mem_ownerRows (h.without.referred hs₀)).mp hrow).1
  have hgone : ∀ {s' : Store}, s'.lasting = (act.store.phones.erase row.phone.phoneId,
      act.store.ownerGenesis, act.store.frame) →
      Without env s₀ ((done ++ [row]).map OwnerRow.ref) s' ∧ s'.ownerGenesis = some .closed := by
    intro s' hs'
    rw [List.map_append]
    exact ⟨h.without.erase hrow₀ (hid ▸ hs'), (ownerGenesis_of_lasting hs').trans h.marker⟩
  refine .bind ((Server.removeOwner_sat hmem).mono ?_ ?_ ?_)
  · rintro _ act' ⟨rfl, hstore, hclosed, hremoved, hremoving⟩
    refine hf act' ⟨by simp [h.rows], (hgone hstore).1, (hgone hstore).2,
      hclosed.trans h.closed, ?_, hremoving⟩
    rw [hremoved, h.removed, List.map_append]
    rfl
  · rintro _ act' ⟨hraises, hstore, hprogress⟩
    exact ⟨hraises, h.landed_isSo hs₀ hheld hstore hprogress, h.within hstore⟩
  · rintro act' ⟨hstops, hstore | hstore⟩
    · exact ⟨hstops, h.within hstore⟩
    · refine ⟨hstops, _, (hgone hstore).1, fun hopen => ?_⟩
      rw [(hgone hstore).2] at hopen
      cases hopen

/-- Once every owner is gone genesis is reopened. -/
theorem Midway.reopen_sat (h : Midway env s₀ done [] act) (hs₀ : Referred env s₀.phones)
    (hdone : done ≠ []) :
    (onStore (setOwnerGenesis .opened) >>= fun _ => pure ResetEnd.done).Sat F act
      (removalPost env F s₀) := by
  have hrows : ownerRows env s₀ = done := by rw [h.rows, List.append_nil]
  have hopened : Emptied env s₀ { act.store with ownerGenesis := some .opened } :=
    ⟨⟨hrows ▸ h.without.phones, h.without.frame, List.Subset.refl _⟩, rfl⟩
  refine .bind (setOwnerGenesis_sat (.pure ⟨rfl, hopened⟩) (fun hraises _ => ?_)
    (fun hstops => ⟨hstops, h.within rfl⟩) fun hstops =>
      ⟨hstops, _, hopened.1, fun _ => .inl (List.Subset.refl _)⟩)
  refine ⟨hraises, ?_, h.within rfl⟩
  rw [Progress.landed, h.removing]
  dsimp only
  rw [h.removed, if_pos (by simpa using hdone)]
  have hnone : ownerRows env act.store = [] :=
    List.eq_nil_iff_forall_not_mem.mpr fun row hrow =>
      absurd ((h.mem_rows hs₀ rfl).mp hrow) List.not_mem_nil
  exact ⟨by rw [hrows], ownerRows_eq_nil.mp hnone, h.marker⟩

/-- The loop over the owners: the induction is on the phones still ahead. -/
theorem removeEach_sat (hs₀ : Referred env s₀.phones) (rest : List OwnerRow) :
    ∀ done act, Midway env s₀ done rest act → (rest = [] → done ≠ []) →
      (removeEach rest).Sat F act (removalPost env F s₀) := by
  induction rest with
  | nil =>
    intro done act h hdone
    exact h.reopen_sat hs₀ (hdone rfl)
  | cons row rest ih =>
    intro done act h _
    have hnodup : ((row :: rest).map OwnerRow.ref).Nodup := (h.nodup hs₀).of_append_right
    have hnoted : Midway env s₀ done (row :: rest) { act with progress :=
        { act.progress with held := ((row :: rest).map OwnerRow.ref).eraseDups } } :=
      ⟨h.rows, h.without, h.marker, h.closed, h.removed, h.removing⟩
    refine .bindModify (hnoted.removeOwner_sat hs₀ (fun _ => eraseDups_of_nodup hnodup)
      fun act' h' => ?_)
    rw [if_pos rfl]
    exact ih _ act' h' fun _ => by simp

/-- Genesis is closed before anything else is written. -/
theorem writeClosed_sat {f : PUnit → OnHost ResetEnd}
    (hf : ∀ act', Midway env s₀ [] (ownerRows env s₀) act' →
      (f ⟨⟩).Sat F act' (removalPost env F s₀)) :
    (writeClosed >>= f).Sat F ⟨s₀, .start⟩ (removalPost env F s₀) := by
  have hunchanged : Without env s₀ [] s₀ := ⟨fun _ => by simp, rfl, List.nil_subset _⟩
  have hclosed : Without env s₀ [] { s₀ with ownerGenesis := some .closed } :=
    ⟨fun _ => by simp, rfl, List.nil_subset _⟩
  have hwithin : Within env s₀ s₀ := ⟨[], hunchanged, fun h => .inr ⟨rfl, h⟩⟩
  refine .bind (.bindModify (.bind (setOwnerGenesis_sat (.modify (hf _ ?_)) (fun hraises _ => ?_)
    (fun hstops => ⟨hstops, hwithin⟩) fun hstops => ⟨hstops, [], hclosed, nofun⟩)))
  · exact ⟨rfl, hclosed, rfl, rfl, rfl, rfl⟩
  · exact ⟨hraises, ⟨fun _ => rfl, rfl⟩, hwithin⟩

end

/-! ## The command -/

section

variable (env : Host)

/-- Every owner phone is named by `--confirm`, and genesis is to be reopened. -/
def ResetArgs.Names (args : ResetArgs) (rows : List OwnerRow) : Prop :=
  args.reopenGenesis = true ∧ ∃ confirm ∈ args.confirm, ∀ row ∈ rows,
    row.ref ∈ if args.everyOwnerLost then confirmItems confirm else [normRef confirm]

/-- The chain replays, and its id is not sealed. -/
def Unsealed (s : Store) : Prop :=
  ∃ cs, genesisChainState env.toPrimitives s.chain = .ok cs ∧ cs >>= ChainState.sealedId = none

/-- How the command ends on a store that it may change. -/
def lockedPost (F : Fault → Prop) (args : ResetArgs) (s₀ : Store) :
    Post HostAct Refusal ResetEnd where
  done ended act := (∃ why, ended = .refused why ∧ act.store = s₀) ∨
    (ownerRows env s₀ ≠ [] → args.Names (ownerRows env s₀)) ∧ ended = .done ∧
      Emptied env s₀ act.store
  raised _ act := (ownerRows env s₀ ≠ [] → args.Names (ownerRows env s₀)) ∧ F .raises ∧
    act.progress.landed.IsSo env s₀ act.store ∧ Within env s₀ act.store
  stopped act := (ownerRows env s₀ ≠ [] → args.Names (ownerRows env s₀)) ∧ Stops F ∧
    Within env s₀ act.store

/-- What a reset that changed the store met, and how far it came. -/
structure Acted (args : ResetArgs) (s s' : Store) : Prop where
  idle : s.up = false
  unsealed : Unsealed env s
  names : ownerRows env s ≠ [] → args.Names (ownerRows env s)
  within : Within env s.reloaded s'

/-- How the command ends. -/
def resetPost (F : Fault → Prop) (args : ResetArgs) (s : Store) :
    Post HostAct Refusal ResetEnd where
  done ended act :=
    match ended with
    | .refused _ => act.store = s ∨ act.store = s.reloaded
    | .done => Acted env args s act.store ∧ Emptied env s.reloaded act.store
    | .failed landed => F .raises ∧ Acted env args s act.store ∧
        landed.IsSo env s.reloaded act.store
  raised _ act := act.store = s.reloaded
  stopped act := Stops F ∧ Acted env args s act.store

end

section

variable {env : Host} {F : Fault → Prop} {args : ResetArgs} {s s₀ : Store}

theorem refused_sat (why : ResetRefused) :
    (pure (.refused why) : OnHost ResetEnd).Sat F ⟨s₀, .start⟩ (lockedPost env F args s₀) :=
  .pure (.inl ⟨why, rfl, rfl⟩)

theorem removal_sat {m : OnHost ResetEnd}
    (hnames : ownerRows env s₀ ≠ [] → args.Names (ownerRows env s₀))
    (h : m.Sat F ⟨s₀, .start⟩ (removalPost env F s₀)) :
    m.Sat F ⟨s₀, .start⟩ (lockedPost env F args s₀) :=
  h.mono (fun _ _ h => .inr ⟨hnames, h⟩) (fun _ _ h => ⟨hnames, h⟩) fun _ h => ⟨hnames, h⟩

theorem ownerResetEveryOwnerLost_sat (hs₀ : Referred env s₀.phones)
    (hevery : args.everyOwnerLost = true) :
    (ownerResetEveryOwnerLost args (ownerRows env s₀)).Sat F ⟨s₀, .start⟩
      (lockedPost env F args s₀) := by
  refine .ite (fun _ => refused_sat _) fun _ => .ite (fun _ => refused_sat _) fun hreopen => ?_
  split
  · exact refused_sat _
  rename_i confirm hconfirm
  refine .ite (fun _ => refused_sat _) fun _ => .ite (fun _ => refused_sat _) fun hrows =>
    .ite (fun _ => refused_sat _) fun hnamed => ?_
  refine removal_sat (fun _ => ⟨by simpa using hreopen, confirm,
    (Option.filter_eq_some_iff.mp hconfirm).1, fun row hrow => ?_⟩)
    (writeClosed_sat fun act' h' => removeEach_sat hs₀ _ [] act' h' fun hnil => absurd hnil hrows)
  rw [if_pos hevery]
  have hitem := (not_not.mp hnamed).1 row hrow
  rwa [phoneId_of_mem hs₀ hrow, or_self] at hitem

theorem reopen_sat (hnone : ownerRows env s₀ = []) :
    (note (fun p => { p with writing := true }) >>= fun _ =>
      onStore (setOwnerGenesis .opened) >>= fun _ => pure ResetEnd.done).Sat F ⟨s₀, .start⟩
      (removalPost env F s₀) := by
  have hwithout : Without env s₀ [] s₀ := ⟨fun _ => by simp, rfl, List.nil_subset _⟩
  have hopened : Without env s₀ [] { s₀ with ownerGenesis := some .opened } :=
    ⟨fun _ => by simp, rfl, List.nil_subset _⟩
  have hall : (ownerRows env s₀).map OwnerRow.ref ⊆ [] := by simp [hnone]
  refine .bindModify (.bind (setOwnerGenesis_sat (.pure ⟨rfl, ?_, rfl⟩)
    (fun hraises _ => ⟨hraises, ⟨fun _ => rfl, rfl⟩, [], hwithout, fun _ => .inl hall⟩)
    (fun hstops => ⟨hstops, [], hwithout, fun _ => .inl hall⟩)
    fun hstops => ⟨hstops, [], hopened, fun _ => .inl hall⟩))
  rw [hnone]
  exact hopened

theorem reopenAlone_sat :
    (reopenAlone args (ownerRows env s₀)).Sat F ⟨s₀, .start⟩ (lockedPost env F args s₀) := by
  refine .ite (fun _ => refused_sat _) fun _ => .ite (fun _ => refused_sat _) fun hrows => ?_
  exact removal_sat (fun h => absurd h hrows) (reopen_sat (not_not.mp hrows))

/-- No owner but the target is left beside it. -/
theorem ownerRows_eq_singleton (hs₀ : Referred env s₀.phones) {target : OwnerRow}
    (htarget : target ∈ ownerRows env s₀)
    (hremaining : (ownerRows env s₀).filter
      (fun row => row.phone.phoneId ≠ target.phone.phoneId) = []) :
    ownerRows env s₀ = [target] := by
  have hall : ∀ row ∈ ownerRows env s₀, row = target := by
    intro row hrow
    have hid : row.phone.phoneId = target.phone.phoneId := by
      simpa using List.filter_eq_nil_iff.mp hremaining row hrow
    rw [phoneId_of_mem hs₀ hrow, phoneId_of_mem hs₀ htarget] at hid
    obtain ⟨hget, hslot⟩ := (mem_ownerRows hs₀).mp hrow
    obtain ⟨hget', hslot'⟩ := (mem_ownerRows hs₀).mp htarget
    have hphone : row.phone = target.phone :=
      Option.some.inj (hget.symm.trans (hid ▸ hget'))
    have hsame : row.slot = target.slot :=
      Slot.owner.inj (hslot.symm.trans (hphone ▸ hslot'))
    cases row
    cases target
    simp_all
  have hreplicate := List.eq_replicate_iff.mpr ⟨rfl, hall⟩
  have hnodup := (nodup_refs hs₀).of_map
  rw [hreplicate, List.nodup_replicate] at hnodup
  have hpos := List.length_pos_of_mem htarget
  rw [hreplicate, show (ownerRows env s₀).length = 1 by omega]
  rfl

theorem removeLast_sat (hs₀ : Referred env s₀.phones) (hevery : args.everyOwnerLost = false)
    {slot : OwnerSlot} {confirm : String} (hconfirm : args.confirm = some confirm) :
    (removeLast args slot (normRef confirm) (ownerRows env s₀)).Sat F ⟨s₀, .start⟩
      (lockedPost env F args s₀) := by
  unfold removeLast
  split
  · exact refused_sat _
  rename_i target htarget
  refine .ite (fun _ => refused_sat _) fun _ => .ite (fun _ => refused_sat _) fun hremaining =>
    .ite (fun _ => refused_sat _) fun hreopen => ?_
  have hmem := List.mem_of_find?_eq_some htarget
  have hrows := ownerRows_eq_singleton hs₀ hmem (not_not.mp hremaining)
  have hnamed : target.ref = normRef confirm ∨ target.phone.phoneId = normRef confirm := by
    simpa using List.find?_some htarget
  rw [phoneId_of_mem hs₀ hmem, or_self] at hnamed
  refine removal_sat (fun _ => ⟨by simpa using hreopen, confirm, hconfirm, fun row hrow => ?_⟩)
    (writeClosed_sat fun act' h' => ?_)
  · rw [hrows, List.mem_singleton] at hrow
    rw [hevery, hrow, hnamed]
    exact List.mem_singleton_self _
  · rw [hrows] at h'
    refine h'.removeOwner_sat hs₀ (fun h => absurd rfl h) fun act'' h'' => ?_
    rw [if_pos rfl]
    exact h''.reopen_sat hs₀ (by simp)

theorem ownerResetLocked_sat (hs₀ : Referred env s₀.phones) (args : ResetArgs) :
    (ownerResetLocked env args).Sat F ⟨s₀, .start⟩ (lockedPost env F args s₀) := by
  refine .bindGet (.ite (fun hevery => ownerResetEveryOwnerLost_sat hs₀ hevery) fun hevery => ?_)
  split
  · exact reopenAlone_sat
  · rename_i hconfirm
    exact removeLast_sat hs₀ (by simpa using hevery) hconfirm
  · exact refused_sat _

theorem cmdBootloaderOwnerReset_sat (hs : Referred env s.phones) (args : ResetArgs) :
    (cmdBootloaderOwnerReset env args).Sat F ⟨s, .start⟩ (resetPost env F args s) := by
  refine .bindGet (.ite (fun _ => .pure (.inl rfl)) fun hidle => ?_)
  refine .bind (onStore_sat (.modify ?_))
  dsimp only
  split
  · exact .pure (.inr rfl)
  · exact .raise rfl
  · rename_i cs hcs
    split
    · exact .pure (.inr rfl)
    · rename_i hsealed
      have hreloaded : Referred env s.reloaded.phones := hs
      have hacted : ∀ {s'},
          (ownerRows env s.reloaded ≠ [] → args.Names (ownerRows env s.reloaded)) →
          Within env s.reloaded s' → Acted env args s s' :=
        fun hnames hwithin => ⟨by simpa using hidle, ⟨cs, hcs, hsealed⟩, hnames, hwithin⟩
      refine .handle ((ownerResetLocked_sat hreloaded args).mono ?_ ?_ ?_)
      · rintro _ act (⟨why, rfl, hstore⟩ | ⟨hnames, rfl, hemptied⟩)
        · exact .inr hstore
        · exact ⟨hacted hnames ⟨_, hemptied.1, fun _ => .inl (List.Subset.refl _)⟩, hemptied⟩
      · rintro _ act ⟨hnames, hraises, hso, hwithin⟩
        exact .bindGet (.pure ⟨hraises, hacted hnames hwithin, hso⟩)
      · rintro act ⟨hnames, hstops, hwithin⟩
        exact ⟨hstops, hacted hnames hwithin⟩

end

/-! ## Runs of the server and the host -/

/-- What happens to a store: a process serves it, the process is stopped, or the host resets. -/
inductive HostEvent where
  | served (event : Event)
  | stopped
  | ownerReset (elapsed : ℕ) (faults : List Fault) (args : ResetArgs)

section

variable (env : Host)

def HostEvent.after (s : Store) : HostEvent → Store
  | .served event => (serve env s event).after
  | .stopped => { s with up := false }
  | .ownerReset elapsed faults args =>
      ((cmdBootloaderOwnerReset env args).run faults ⟨s.later elapsed, .start⟩).store.store

def hostRun (s : Store) (events : List HostEvent) : Store :=
  events.foldl (fun s event => event.after env s) s

/-- What the server finishes leaves an owner phone; the host's own command is asked nothing. -/
def HostEvent.LeavesOwner (s : Store) : HostEvent → Prop
  | .served event => event.action.LeavesOwner env (s.later event.elapsed)
  | _ => True

instance (s : Store) (event : HostEvent) : Decidable (event.LeavesOwner env s) := by
  cases event <;> unfold HostEvent.LeavesOwner <;> infer_instance

def LeaveOwners : Store → List HostEvent → Prop
  | _, [] => True
  | s, event :: events => event.LeavesOwner env s ∧ LeaveOwners (event.after env s) events

instance decidableLeaveOwners : ∀ s events, Decidable (LeaveOwners env s events)
  | _, [] => .isTrue trivial
  | s, event :: events =>
      have := decidableLeaveOwners (event.after env s) events
      inferInstanceAs (Decidable (_ ∧ _))

end

section

variable {env : Host} {args : ResetArgs} {s s₀ : Store}

theorem hostRun_append (s : Store) (events more : List HostEvent) :
    hostRun env s (events ++ more) = hostRun env (hostRun env s events) more := List.foldl_append

theorem leaveOwners_append {events more : List HostEvent} :
    LeaveOwners env s (events ++ more) ↔
      LeaveOwners env s events ∧ LeaveOwners env (hostRun env s events) more := by
  induction events generalizing s with
  | nil => simp [LeaveOwners, hostRun]
  | cons event events ih => simp [LeaveOwners, hostRun, ih, and_assoc]

theorem Without.sub {gone : List String} (h : Without env s₀ gone s) {ref : String}
    {p : PhoneRegistration} (hp : s.phones.get? ref = some p) : s₀.phones.get? ref = some p := by
  rw [h.phones] at hp
  split at hp
  · cases hp
  · exact hp

theorem Bindings.of_sub {Minted : String × String → Prop}
    {phones phones' : Dict String PhoneRegistration} (h : Bindings env Minted phones)
    (hsub : ∀ {ref p}, phones'.get? ref = some p → phones.get? ref = some p) :
    Bindings env Minted phones' :=
  ⟨fun hp => h.id (hsub hp), fun hp hp' => h.sole (hsub hp) (hsub hp'),
    fun hp => h.subject (hsub hp), fun hp => h.minted (hsub hp)⟩

theorem Planned.referred {Minted : String × String → Prop} (hs : Planned env Minted s) :
    Referred env s.phones := fun _ _ hp => hs.bindings.id hp

theorem Within.planned {Minted : String × String → Prop} (h : Within env s₀ s)
    (hs₀ : Planned env Minted s₀) : Planned env Minted s := by
  obtain ⟨gone, hwithout, -⟩ := h
  have hframe := hwithout.frame
  simp only [Store.frame, Prod.mk.injEq] at hframe
  obtain ⟨-, -, hcodes, hchallenges, -⟩ := hframe
  exact ⟨hs₀.bindings.of_sub hwithout.sub, hcodes ▸ hs₀.codes, hchallenges ▸ hs₀.challenges⟩

/-- A reset that is refused changes no file. -/
theorem ownerReset_cases (hs : Referred env s.phones) (elapsed : ℕ) (faults : List Fault)
    (args : ResetArgs) {s' : Store}
    (hs' : (HostEvent.ownerReset elapsed faults args).after env s = s') :
    s' = s.later elapsed ∨ s' = (s.later elapsed).reloaded ∨
      Acted env args (s.later elapsed) s' := by
  have h := cmdBootloaderOwnerReset_sat (F := Fault.Any) (s := s.later elapsed) hs args faults
    fun _ _ => trivial
  rw [HostEvent.after] at hs'
  cases hrun : (cmdBootloaderOwnerReset env args).run faults ⟨s.later elapsed, .start⟩ with
  | done ended act rest =>
    rw [hrun] at h hs'
    subst hs'
    cases ended with
    | done => exact .inr (.inr h.1.1)
    | refused why => exact h.1.imp_right .inl
    | failed landed => exact .inr (.inr h.1.2.1)
  | raised e act rest =>
    rw [hrun] at h hs'
    subst hs'
    exact .inr (.inl h.1)
  | stopped act =>
    rw [hrun] at h hs'
    subst hs'
    exact .inr (.inr h.2)

theorem planned_after (hs : Planned env (fun _ => True) s) (event : HostEvent) :
    Planned env (fun _ => True) (event.after env s) := by
  cases event with
  | served event => exact serve_planned hs fun _ _ => trivial
  | stopped => exact ⟨hs.bindings, hs.codes, hs.challenges⟩
  | ownerReset elapsed faults args =>
    have hreloaded : Planned env (fun _ => True) (s.later elapsed).reloaded :=
      ⟨hs.bindings, .empty, .empty⟩
    rcases ownerReset_cases hs.referred elapsed faults args rfl with h | h | h
    · rw [h]
      exact ⟨hs.bindings, hs.codes, hs.challenges⟩
    · rwa [h]
    · exact h.within.planned hreloaded

theorem planned_hostRun (env : Host) (clock : ℤ) (events : List HostEvent) :
    Planned env (fun _ => True) (hostRun env (Store.new clock) events) := by
  induction events using List.reverseRecOn with
  | nil => exact ⟨.empty, .empty, .empty⟩
  | append_singleton events event ih =>
    rw [hostRun_append]
    exact planned_after ih event

/-! ### A reset and the phones -/

/-- What a reset does to the store, however it ends. -/
structure Restrained (env : Host) (args : ResetArgs) (s s' : Store) : Prop where
  phones : ∀ ref p, s'.phones.get? ref = some p → s.phones.get? ref = some p
  gone : ∀ ref p, s.phones.get? ref = some p → s'.phones.get? ref = none →
    p.IsOwner ∧ s.up = false ∧ Unsealed env s ∧ args.Names (ownerRows env s)
  records : s'.topPlane = s.topPlane
  chain : s'.chain = s.chain
  marker : s'.ownerGenesis = some .opened → s'.owners = [] ∨
    s.ownerGenesis = some .opened ∧ ∀ ref, s'.phones.get? ref = s.phones.get? ref

theorem Restrained.of_same {s' : Store}
    (h : (s'.phones, s'.topPlane, s'.chain, s'.ownerGenesis) =
      (s.phones, s.topPlane, s.chain, s.ownerGenesis)) : Restrained env args s s' := by
  simp only [Prod.mk.injEq] at h
  obtain ⟨hphones, hrecords, hchain, hmarker⟩ := h
  refine ⟨fun _ _ hp => hphones ▸ hp, fun ref p hp hnone => ?_, hrecords, hchain,
    fun hopen => .inr ⟨hmarker ▸ hopen, fun _ => by rw [hphones]⟩⟩
  rw [hphones, hp] at hnone
  cases hnone

theorem Acted.restrained (hs : Referred env s.phones) {s' : Store} (h : Acted env args s s') :
    Restrained env args s s' := by
  obtain ⟨gone, hwithout, hmarker⟩ := h.within
  have hframe := hwithout.frame
  simp only [Store.frame, Prod.mk.injEq] at hframe
  refine ⟨fun _ _ => hwithout.sub, fun ref p hp hnone => ?_, hframe.1, hframe.2.1,
    fun hopen => ?_⟩
  · have hgone : ref ∈ gone := by
      by_contra hnot
      rw [hwithout.phones, if_neg hnot] at hnone
      exact absurd (hp.symm.trans hnone) nofun
    obtain ⟨row, hrow, rfl⟩ := List.mem_map.mp (hwithout.owners hgone)
    obtain ⟨hget, hslot⟩ := (mem_ownerRows hs).mp hrow
    obtain rfl := Option.some.inj (hp.symm.trans hget)
    exact ⟨PhoneRegistration.isOwner_iff.mpr ⟨_, hslot⟩, h.idle, h.unsealed,
      h.names (List.ne_nil_of_mem hrow)⟩
  · rcases hmarker hopen with hall | ⟨rfl, hopened⟩
    · exact .inl (hwithout.owners_eq_nil hs hall)
    · exact .inr ⟨hopened, fun ref => (hwithout.phones ref).trans (if_neg List.not_mem_nil)⟩

/-- In every run of the server and the host, whatever faults are met: a reset removes owner phones
only, and only where no process serves the store, the id is not sealed and `--confirm` names every
owner phone; it touches no other phone, no record and no entry of the chain; and it leaves genesis
open only beside no owner phone, or where it was open and every phone stays. -/
theorem ownerReset_restrained (env : Host) (clock : ℤ) (events : List HostEvent) (elapsed : ℕ)
    (faults : List Fault) (args : ResetArgs) :
    Restrained env args (hostRun env (Store.new clock) events)
      (hostRun env (Store.new clock) (events ++ [.ownerReset elapsed faults args])) := by
  have hs := (planned_hostRun env clock events).referred
  have hlater : Referred env ((hostRun env (Store.new clock) events).later elapsed).phones := hs
  rw [hostRun_append]
  rcases ownerReset_cases hs elapsed faults args rfl with h | h | h
  · exact .of_same (by rw [hostRun, List.foldl_cons, List.foldl_nil, h]; rfl)
  · exact .of_same (by rw [hostRun, List.foldl_cons, List.foldl_nil, h]; rfl)
  · obtain ⟨hphones, hgone, hrecords, hchain, hmarker⟩ := h.restrained hlater
    exact ⟨hphones, hgone, hrecords, hchain, hmarker⟩

/-! ### The last owner -/

theorem Referred.registry {phones : Dict String PhoneRegistration} (h : Referred env phones) :
    Registry phones where
  id hp := (h _ _ hp).1
  key hp hp' hkey := by rw [← (h _ _ hp).2, ← (h _ _ hp').2, hkey]

theorem guarded_after {H : Prop} (hs : Guarded False s) (hplanned : Planned env (fun _ => True) s)
    {event : HostEvent} (hleaves : event.LeavesOwner env s)
    (howner : H → HasOwner (event.after env s).phones) : Guarded H (event.after env s) := by
  refine ⟨?_, howner⟩
  cases event with
  | served event => exact (serve_guarded hs event hleaves).regular
  | stopped => exact Store.Regular.congr (s := s) rfl hs.regular
  | ownerReset elapsed faults args =>
    rcases ownerReset_cases hplanned.referred elapsed faults args rfl with h | h | h
    · exact Store.Regular.congr (s := s) (by rw [h]; rfl) hs.regular
    · exact Store.Regular.congr (s := s) (by rw [h]; rfl) hs.regular
    · obtain ⟨gone, hwithout, -⟩ := h.within
      have hframe := hwithout.frame
      simp only [Store.frame, Prod.mk.injEq] at hframe
      refine ⟨(hwithout.referred hplanned.referred).registry, fun hid => ?_⟩
      rw [hframe.1] at hid
      exact hs.regular.canonical hid

theorem guarded_hostRun {events : List HostEvent} {clock : ℤ}
    (hleaves : LeaveOwners env (Store.new clock) events) :
    Guarded False (hostRun env (Store.new clock) events) := by
  induction events using List.reverseRecOn with
  | nil => exact guarded_new clock
  | append_singleton events event ih =>
    obtain ⟨hbefore, hevent, -⟩ := leaveOwners_append.mp hleaves
    rw [hostRun_append]
    exact guarded_after (ih hbefore) (planned_hostRun env clock events) hevent nofun

/-- Only a reset that names every owner phone takes the last one. -/
theorem owners_after (hs : Guarded False s) (hplanned : Planned env (fun _ => True) s)
    (howner : s.owners ≠ []) {event : HostEvent} (hleaves : event.LeavesOwner env s)
    (hnone : (event.after env s).owners = []) :
    ∃ elapsed faults args, event = .ownerReset elapsed faults args ∧ s.up = false ∧
      Unsealed env s ∧ args.Names (ownerRows env s) := by
  cases event with
  | served event =>
    have hguarded : Guarded True s := ⟨hs.regular, fun _ => hasOwner_iff.mpr howner⟩
    exact absurd hnone (hasOwner_iff.mp ((serve_guarded hguarded event hleaves).owner trivial))
  | stopped => exact absurd hnone howner
  | ownerReset elapsed faults args =>
    refine ⟨elapsed, faults, args, rfl, ?_⟩
    rcases ownerReset_cases hplanned.referred elapsed faults args rfl with h | h | h
    · rw [h] at hnone
      exact absurd hnone howner
    · rw [h] at hnone
      exact absurd hnone howner
    · exact ⟨h.idle, h.unsealed, h.names fun hrows => howner (ownerRows_eq_nil.mp hrows)⟩

/-- In every run of the server and the host whose served steps leave an owner, whatever faults are
met: once a phone is registered in an owner slot, the owner slots are emptied by nothing but a reset
of the host that names every phone in them, with no process on the store and the id not sealed. -/
theorem owners_emptied_by_reset (env : Host) (clock : ℤ) (events more : List HostEvent)
    (hleaves : LeaveOwners env (Store.new clock) (events ++ more))
    (howner : (hostRun env (Store.new clock) events).owners ≠ [])
    (hnone : (hostRun env (Store.new clock) (events ++ more)).owners = []) :
    ∃ before elapsed faults args after,
      more = before ++ HostEvent.ownerReset elapsed faults args :: after ∧
      ∃ s, s = hostRun env (Store.new clock) (events ++ before) ∧ s.owners ≠ [] ∧ s.up = false ∧
        Unsealed env s ∧ args.Names (ownerRows env s) := by
  induction more using List.reverseRecOn with
  | nil =>
    rw [List.append_nil] at hnone
    exact absurd hnone howner
  | append_singleton more event ih =>
    rw [← List.append_assoc] at hleaves hnone
    obtain ⟨hbefore, hevent, -⟩ := leaveOwners_append.mp hleaves
    by_cases hgone : (hostRun env (Store.new clock) (events ++ more)).owners = []
    · obtain ⟨before, elapsed, faults, args, after, rfl, h⟩ := ih hbefore hgone
      exact ⟨before, elapsed, faults, args, after ++ [event], by simp, h⟩
    · rw [hostRun_append] at hnone
      obtain ⟨elapsed, faults, args, rfl, h⟩ := owners_after (guarded_hostRun hbefore)
        (planned_hostRun env clock _) hgone hevent hnone
      exact ⟨more, elapsed, faults, args, [], rfl, _, rfl, hgone, h⟩

/-- The first owner is removed by name once the process is stopped. -/
def sampleReset : List HostEvent :=
  [.stopped, .ownerReset 0 [] ⟨some .primary, some "pk_d7945bc8", false, true⟩]

theorem owners_emptied_by_reset_sample :
    ∃ before elapsed faults args after,
      sampleReset = before ++ HostEvent.ownerReset elapsed faults args :: after ∧
      ∃ s, s = hostRun sampleHost (Store.new 0) (sampleGenesis.map .served ++ before) ∧
        s.owners ≠ [] ∧ s.up = false ∧ Unsealed sampleHost s ∧
        args.Names (ownerRows sampleHost s) :=
  owners_emptied_by_reset sampleHost 0 (sampleGenesis.map .served) sampleReset (by decide +kernel)
    (by decide +kernel) (by decide +kernel)

end

/-! ## The report of a failed command -/

section

variable {env : Host} {s : Store}

theorem hexDigit_plain : ∀ d < 16, isSpace (Json.hexDigit d) = false ∧ Json.hexDigit d ≠ ',' := by
  decide

/-- A ref has no blank and no comma in it. -/
theorem phoneRef_plain (publicKey : String) :
    ∀ c ∈ chars (phoneRef env publicKey), isSpace c = false ∧ c ≠ ',' := by
  intro c hc
  rw [phoneRef, chars_eq_toList, String.toList_append, List.mem_append, String.toList_ofList] at hc
  rcases hc with hc | hc
  · have hstart : c = 'p' ∨ c = 'k' ∨ c = '_' := by
      simpa using hc
    rcases hstart with rfl | rfl | rfl
    · exact ⟨rfl, by decide⟩
    · exact ⟨rfl, by decide⟩
    · exact ⟨rfl, by decide⟩
  · rw [hex, chars_ofList, String.toList_ofList] at hc
    obtain ⟨b, -, hb⟩ := List.mem_flatMap.mp (List.mem_of_mem_take hc)
    have hlt := b.toNat_lt
    rcases List.mem_cons.mp hb with rfl | hb
    · exact hexDigit_plain _ (by omega)
    · obtain rfl := List.mem_singleton.mp hb
      exact hexDigit_plain _ (by omega)

theorem phoneRef_ne_empty (publicKey : String) : phoneRef env publicKey ≠ "" := by
  intro h
  have hlength := congrArg (fun t => t.toList.length) h
  simp [phoneRef] at hlength

/-- What the report joins the command splits again. -/
theorem confirmItems_joinRefs {refs : List String} (hne : refs ≠ [])
    (h : ∀ ref ∈ refs, ∀ c ∈ chars ref, isSpace c = false ∧ c ≠ ',') :
    confirmItems (joinRefs refs) = refs := by
  have hcomma : ∀ text ∈ refs.map chars, ',' ∉ text := by
    intro text htext hc
    obtain ⟨ref, href, rfl⟩ := List.mem_map.mp htext
    exact (h ref href _ hc).2 rfl
  rw [confirmItems, joinRefs, chars_ofList,
    List.splitOn_intercalate ',' hcomma (by simpa using hne), List.map_map]
  refine (List.map_congr_left fun ref href => ?_).trans (List.map_id' refs)
  have hkeep : (chars ref).filter (fun c => !isSpace c) = chars ref :=
    List.filter_eq_self.mpr fun c hc => by simp [(h ref href c hc).1]
  rw [Function.comp_apply, normRef, chars_ofList, hkeep, chars_eq_toList, String.ofList_toList]

/-- The advised command finds its items to be the owners held. -/
theorem ownerResetEveryOwnerLost_held (hs : Referred env s.phones) {held : List String}
    (hnodup : held.Nodup) (hheld : ∀ ref, ref ∈ held ↔ ref ∈ (ownerRows env s).map OwnerRow.ref)
    (hrows : ownerRows env s ≠ []) :
    ownerResetEveryOwnerLost ⟨none, some (joinRefs held), true, true⟩ (ownerRows env s) =
      (writeClosed >>= fun _ => removeEach (ownerRows env s)) := by
  have hkey : ∀ ref ∈ held, ∃ publicKey, ref = phoneRef env publicKey := by
    intro ref href
    obtain ⟨row, hrow, rfl⟩ := List.mem_map.mp ((hheld ref).mp href)
    exact ⟨_, (hs _ _ ((mem_ownerRows hs).mp hrow).1).2.symm⟩
  have hne : held ≠ [] := by
    obtain ⟨row, hrow⟩ := List.exists_mem_of_ne_nil _ hrows
    exact List.ne_nil_of_mem ((hheld _).mpr (List.mem_map_of_mem hrow))
  have hitems : confirmItems (joinRefs held) = held := by
    refine confirmItems_joinRefs hne fun ref href => ?_
    obtain ⟨publicKey, rfl⟩ := hkey ref href
    exact phoneRef_plain publicKey
  have hempty : "" ∉ held := by
    intro h
    obtain ⟨publicKey, hpub⟩ := hkey _ h
    exact phoneRef_ne_empty publicKey hpub.symm
  have hconfirm : orNone (some (joinRefs held)) = some (joinRefs held) := by
    refine Option.filter_eq_some_iff.mpr ⟨rfl, ?_⟩
    have : joinRefs held ≠ "" := by
      intro h
      rw [h] at hitems
      exact hempty (hitems ▸ List.mem_singleton.mpr (by decide +kernel))
    simpa using this
  have hnamed : NamesEvery held (ownerRows env s) := by
    refine ⟨fun row hrow => .inl ((hheld _).mpr (List.mem_map_of_mem hrow)), hnodup,
      fun item hitem => ?_⟩
    obtain ⟨row, hrow, rfl⟩ := List.mem_map.mp ((hheld item).mp hitem)
    exact ⟨row, hrow, .inl rfl⟩
  unfold ownerResetEveryOwnerLost
  rw [hconfirm]
  simp only [hitems, hempty, hrows, hnamed, ne_eq, not_true_eq_false, if_false, Bool.not_true,
    Bool.false_eq_true]

/-- A command that is not refused, and meets no fault, empties the owner slots. -/
theorem calm_done {again : ResetArgs} (hidle : s.up = false) (hunsealed : Unsealed env s)
    (hs : Referred env s.phones)
    (h : (ownerResetLocked env again).Sat Fault.Calm ⟨s.reloaded, .start⟩
      (removalPost env Fault.Calm s.reloaded)) :
    ∃ act rest, (cmdBootloaderOwnerReset env again).run [] ⟨s, .start⟩ = .done .done act rest ∧
      act.store.owners = [] ∧ act.store.ownerGenesis = some .opened := by
  have hcalm : (cmdBootloaderOwnerReset env again).Sat Fault.Calm ⟨s, .start⟩
      ⟨fun ended act => ended = .done ∧ Emptied env s.reloaded act.store, fun _ _ => False,
        fun _ => False⟩ := by
    obtain ⟨cs, hcs, hsealed⟩ := hunsealed
    refine .bindGet ?_
    dsimp only
    rw [if_neg (by simp [hidle])]
    refine .bind (onStore_sat (.modify ?_))
    dsimp only
    rw [hcs]
    dsimp only
    rw [hsealed]
    refine .handle (h.mono (fun _ _ h => h) (fun _ _ h => ?_) fun _ h => ?_)
    · cases h.1
    · rcases h.1 with h | h <;> cases h
  have hend := hcalm [] (by simp)
  cases hrun : (cmdBootloaderOwnerReset env again).run [] ⟨s, .start⟩ with
  | done ended act rest =>
    rw [hrun] at hend
    obtain ⟨rfl, hwithout, hopened⟩ := hend.1
    exact ⟨act, rest, rfl, hwithout.owners_eq_nil hs (List.Subset.refl _), hopened⟩
  | raised e act rest =>
    rw [hrun] at hend
    exact hend.1.elim
  | stopped act =>
    rw [hrun] at hend
    exact hend.elim

/-- After a fault the command that is advised, run without one, finishes the reset. -/
theorem advised_done {landed : Landed} {s₀ : Store} (hidle : s.up = false)
    (hunsealed : Unsealed env s) (hs : Referred env s.phones) (hso : landed.IsSo env s₀ s) :
    ∀ again ∈ landed.advised, ∃ act rest,
      (cmdBootloaderOwnerReset env again).run [] ⟨s, .start⟩ = .done .done act rest ∧
        act.store.owners = [] ∧ act.store.ownerGenesis = some .opened := by
  intro again hagain
  have hreloaded : Referred env s.reloaded.phones := hs
  cases landed with
  | midway removed failed step held =>
    obtain rfl := Option.some.inj hagain
    obtain ⟨-, hfailed, ⟨hnodup, hheld⟩, -⟩ := hso
    obtain ⟨row, hrow, -⟩ := List.mem_map.mp hfailed
    have hrows : ownerRows env s.reloaded ≠ [] := List.ne_nil_of_mem hrow
    refine calm_done hidle hunsealed hs (.bindGet ?_)
    rw [if_pos rfl, ownerResetEveryOwnerLost_held hreloaded hnodup hheld hrows]
    exact writeClosed_sat fun act' h' => removeEach_sat hreloaded _ [] act' h' fun hnil =>
      absurd hnil hrows
  | notReopened removed =>
    obtain rfl := Option.some.inj hagain
    have hrows : ownerRows env s.reloaded = [] := ownerRows_eq_nil.mpr hso.2.1
    refine calm_done hidle hunsealed hs (.bindGet ?_)
    have hbody : reopenAlone ⟨none, none, false, true⟩ (ownerRows env s.reloaded) =
        (note (fun p => { p with writing := true }) >>= fun _ =>
          onStore (setOwnerGenesis .opened) >>= fun _ => pure .done) := by
      rw [hrows]
      rfl
    rw [if_neg (by simp), hbody]
    exact reopen_sat hrows
  | notRemoved failed step => cases hagain
  | onlyClosed => cases hagain
  | nothing => cases hagain

/-- In every run of the server and the host, whatever faults are met: what a failed reset reports is
so, and the command it tells the operator to run, when no fault meets it, leaves no owner phone and
genesis open. -/
theorem failed_report (env : Host) (clock : ℤ) (events : List HostEvent) (elapsed : ℕ)
    (faults : List Fault) (args : ResetArgs) {landed : Landed} {s : Store}
    {ending : Ending HostAct Refusal ResetEnd}
    (hs : hostRun env (Store.new clock) events = s)
    (hrun : (cmdBootloaderOwnerReset env args).run faults ⟨s.later elapsed, .start⟩ = ending)
    (hfailed : ending.result? = some (.ok (.failed landed))) :
    landed.IsSo env s ending.store.store ∧ ∀ again ∈ landed.advised, ∃ act rest,
      (cmdBootloaderOwnerReset env again).run [] ⟨ending.store.store, .start⟩ =
        .done .done act rest ∧
        act.store.owners = [] ∧ act.store.ownerGenesis = some .opened := by
  have hreferred : Referred env (s.later elapsed).phones :=
    hs ▸ (planned_hostRun env clock events).referred
  have h := cmdBootloaderOwnerReset_sat (F := Fault.Any) hreferred args faults fun _ _ => trivial
  rw [hrun] at h
  cases ending with
  | done ended act rest =>
    obtain rfl := Except.ok.inj (Option.some.inj hfailed)
    obtain ⟨-, hacted, hso⟩ := h.1
    obtain ⟨gone, hwithout, -⟩ := hacted.within
    have hframe := hwithout.frame
    simp only [Store.frame, Prod.mk.injEq] at hframe
    obtain ⟨-, hchain, -, -, hup⟩ := hframe
    obtain ⟨cs, hcs, hsealed⟩ := hacted.unsealed
    have hreloaded : Referred env (s.later elapsed).reloaded.phones := hreferred
    refine ⟨?_, advised_done hup ⟨cs, hchain ▸ hcs, hsealed⟩ (hwithout.referred hreloaded) hso⟩
    cases landed <;> exact hso
  | raised e act rest => cases hfailed
  | stopped act => cases hfailed

/-- Two owners are named; the write of the registry without the second raises. -/
def sampleLoss : List HostEvent := (sampleGenesis ++ sampleSecondOwner).map .served ++ [.stopped]

def sampleLost : ResetArgs := ⟨none, some "pk_d7945bc8, pk_d76a1561", true, true⟩

def sampleFault : List Fault := [.lands, .lands, .lands, .lands, .raises]

def sampleLanded : Landed :=
  .midway [("pk_d7945bc8", .primary)] ("pk_d76a1561", .recovery) (some .revoke) ["pk_d76a1561"]

theorem failed_report_sample :
    ∃ s : Store,
      sampleLanded.IsSo sampleHost (hostRun sampleHost (Store.new 0) sampleLoss) s := by
  have hfailed : ((cmdBootloaderOwnerReset sampleHost sampleLost).run sampleFault
      ⟨(hostRun sampleHost (Store.new 0) sampleLoss).later 0, .start⟩).result? =
        some (.ok (.failed sampleLanded)) := by
    decide +kernel
  obtain ⟨hso, -⟩ := failed_report sampleHost 0 sampleLoss 0 sampleFault sampleLost rfl rfl hfailed
  exact ⟨_, hso⟩

end

end Server
end Recto
