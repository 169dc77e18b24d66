import Recto.Genesis.Invariant

/-!
# The seal mark

A sealed chain leaves a high-water mark: its id, its length and tip, and the
seal entry. The stored chain is checked against it. A mark in flight carries two
such marks, written ahead of an append; the chain answers to either side. Marks
are read back from a file, so the checks take any JSON value.
-/

namespace Recto
namespace Genesis

variable (env : Primitives)

/-- `xs[i]`, counting from the end for a negative index. -/
def pyIndex {α : Type} (xs : List α) (i : ℤ) : Except PyError α :=
  let j := if 0 ≤ i then i else xs.length + i
  if j < 0 then .error .indexError
  else
    match xs[j.toNat]? with
    | some x => .ok x
    | none => .error .indexError

structure SealMark where
  sealedId : String
  sealSeq : ℤ
  sealHash : String
  length : ℕ
  tip : Option String
  deriving DecidableEq

/-- A value that may be `None`. -/
def jsonOption : Option String → Json
  | none => .null
  | some s => .str s

def SealMark.toJson (mark : SealMark) : Json :=
  .obj [("sealed_id", .str mark.sealedId), ("seal_seq", .int mark.sealSeq),
    ("seal_hash", .str mark.sealHash), ("length", .int mark.length), ("tip", jsonOption mark.tip)]

/-- `{"prev": mark, "next": new_mark}` -/
def inFlight (prev next : Json) : Json := .obj [("prev", prev), ("next", next)]

/-- The mark a sealed chain leaves; `none` for an unsealed one. -/
def sealMarkOf (entries : List ChainEntry) (state : ChainState) :
    Except Failure (Option SealMark) :=
  match state.sealedId with
  | none => .ok none
  | some sealedId =>
      match entries.find? fun e => e.op? = some .sealId with
      | none => .error (.python .stopIteration)
      | some sealing =>
          .ok (some { sealedId := sealedId, sealSeq := sealing.seq,
                      sealHash := entryHash env sealing, length := state.length,
                      tip := state.tipHash })

/-- The chain and its state, when it is sealed. -/
def sealedState (state : Option ChainState) : Option String := state.bind ChainState.sealedId

/-- `_check_one_mark` -/
def checkOneMark (entries : List ChainEntry) (state : Option ChainState) (mark : Json) :
    Except Failure Unit :=
  match mark with
  | .obj fields => do
      let value (key : String) : Json := (fields.lookup key).getD .null
      require ((value "sealed_id").truthy = true) .markMalformed
      match state, sealedState state with
      | some state, some sealedId =>
          require (value "sealed_id" = .str sealedId) (.markOtherId sealedId (value "sealed_id"))
          let length ← orRaise ((fields.lookup "length").getD (.int 0)).toInt
          require (length ≤ state.length) (.markTruncated state.length length)
          let last ← orRaise (pyIndex entries (length - 1))
          require (value "tip" = .str (entryHash env last)) (.markReplaced (length - 1))
          let seq ← orRaise ((fields.lookup "seal_seq").getD (.int (-1))).toInt
          require (0 ≤ seq ∧ (entries[seq.toNat]?).map (fun e => Json.str (entryHash env e)) =
            some (value "seal_hash")) .markSealEntry
      | _, _ => .error (.chain .markUnsealed)
  | _ => .error (.chain .markMalformed)

/-- The sides of a mark in flight in turn: the first the chain answers to is enough. -/
def checkSides (entries : List ChainEntry) (state : Option ChainState) :
    List Json → List String → Except Failure Unit
  | [], reasons => .error (.chain (.markNeitherSide reasons))
  | side :: sides, reasons =>
      if side = .null then
        if sealedState state = none then .ok ()
        else checkSides entries state sides
          (reasons ++ ["an empty side cannot hold a sealed chain"])
      else
        match checkOneMark env entries state side with
        | .ok _ => .ok ()
        | .error (.chain e) => checkSides entries state sides (reasons ++ [e.text env])
        | .error e => .error e

def checkSealMark (entries : List ChainEntry) (state : Option ChainState) (mark : Json) :
    Except Failure Unit :=
  match mark with
  | .null => require (sealedState state = none) .markDeleted
  | .obj [] => .error (.chain .markMalformed)
  | .obj fields =>
      match fields.lookup "next" with
      | some next =>
          checkSides env entries state [next, (fields.lookup "prev").getD .null] []
      | none => checkOneMark env entries state mark
  | _ => .error (.chain .markMalformed)

/-- The side of a mark in flight the chain answers to. -/
def resolveSides (entries : List ChainEntry) (state : Option ChainState) :
    List Json → Except Failure Json
  | [] => .error (.chain .markUnresolved)
  | side :: sides =>
      if side = .null then
        if sealedState state = none then .ok .null else resolveSides entries state sides
      else
        match checkOneMark env entries state side with
        | .ok _ => .ok side
        | .error (.chain _) => resolveSides entries state sides
        | .error e => .error e

/-- The plain mark the stored chain answers to. -/
def resolveSealMark (entries : List ChainEntry) (state : Option ChainState) (mark : Json) :
    Except Failure Json := do
  checkSealMark env entries state mark
  match mark with
  | .obj fields =>
      match fields.lookup "next" with
      | some next => resolveSides env entries state [next, (fields.lookup "prev").getD .null]
      | none => pure mark
  | _ => pure mark

variable {env}

theorem sealMarkOf_eq_some {entries : List ChainEntry} {state : ChainState} {mark : SealMark}
    (h : sealMarkOf env entries state = .ok (some mark)) :
    ∃ sealing ∈ entries, state.sealedId = some mark.sealedId ∧ mark.sealSeq = sealing.seq ∧
      mark.sealHash = entryHash env sealing ∧ mark.length = state.length ∧
      mark.tip = state.tipHash := by
  unfold sealMarkOf at h
  split at h
  · simp at h
  · rename_i sealedId hsealed
    split at h
    · cases h
    · rename_i sealing hfind
      obtain rfl := Option.some.inj (Except.ok.inj h)
      exact ⟨sealing, List.mem_of_find?_eq_some hfind, hsealed, rfl, rfl, rfl, rfl⟩

/-! ## A plain mark -/

theorem pyIndex_pred {α : Type} {xs : List α} {n : ℕ} (hn : 1 ≤ n) (hle : n ≤ xs.length) :
    ∃ x, xs[n - 1]? = some x ∧ pyIndex xs ((n : ℤ) - 1) = .ok x := by
  have hget := List.getElem?_eq_getElem (l := xs) (i := n - 1) (by omega)
  have hnonneg : (0 : ℤ) ≤ (n : ℤ) - 1 := by omega
  have hlt : ¬((n : ℤ) - 1 < 0) := by omega
  have hnat : ((n : ℤ) - 1).toNat = n - 1 := by omega
  refine ⟨_, hget, ?_⟩
  simp only [pyIndex, if_pos hnonneg, if_neg hlt, hnat, hget]

/-- What a plain mark asks of a sealed chain. -/
def SealMark.Matches (env : Primitives) (mark : SealMark) (entries : List ChainEntry)
    (state : ChainState) : Prop :=
  mark.sealedId ≠ "" ∧ state.sealedId = some mark.sealedId ∧ mark.length ≤ state.length ∧
    (entries[mark.length - 1]?).map (entryHash env) = mark.tip ∧
    0 ≤ mark.sealSeq ∧ (entries[mark.sealSeq.toNat]?).map (entryHash env) = some mark.sealHash

/-- The computation refuses with the chain's own errors only. -/
def ChainOnly {α : Type} (x : Except Failure α) : Prop := ∀ e, x = .error e → ∃ c, e = .chain c

theorem ChainOnly.ok {α : Type} (a : α) : ChainOnly (.ok a : Except Failure α) := by
  intro e h
  cases h

theorem ChainOnly.error {α : Type} (c : ChainError) :
    ChainOnly (.error (.chain c) : Except Failure α) := by
  intro e h
  cases h
  exact ⟨c, rfl⟩

theorem ChainOnly.require {p : Prop} [Decidable p] (c : ChainError) :
    ChainOnly (Genesis.require p c) := by
  unfold Genesis.require ensure
  split_ifs
  · exact .ok ()
  · exact .error c

theorem ChainOnly.bind {α β : Type} {x : Except Failure α} {f : α → Except Failure β}
    (hx : ChainOnly x) (hf : ∀ a, x = .ok a → ChainOnly (f a)) : ChainOnly (x >>= f) := by
  cases x with
  | ok a => exact hf a rfl
  | error e =>
    intro e' h
    cases h
    exact hx e rfl

theorem checkOneMark_empty {entries : List ChainEntry} {state : Option ChainState}
    {mark : SealMark} (h : mark.sealedId = "") :
    checkOneMark env entries state mark.toJson = .error (.chain .markMalformed) := by
  simp [checkOneMark, SealMark.toJson, h, Json.truthy, ensure, Bind.bind, Except.bind]

variable (env) in
theorem checkOneMark_unsealed (entries : List ChainEntry) {state : Option ChainState}
    (mark : SealMark) (h : sealedState state = none) :
    ∃ c, checkOneMark env entries state mark.toJson = .error (.chain c) := by
  by_cases hid : mark.sealedId = ""
  · exact ⟨_, checkOneMark_empty hid⟩
  · refine ⟨.markUnsealed, ?_⟩
    simp [checkOneMark, SealMark.toJson, hid, Json.truthy, ensure, Bind.bind, Except.bind, h]

section Sealed

variable {entries : List ChainEntry} {state : ChainState} {mark : SealMark} {sealedId : String}

/-- The checks of a plain mark against a sealed chain. -/
theorem checkOneMark_sealed (hid : mark.sealedId ≠ "") (hsealed : state.sealedId = some sealedId) :
    checkOneMark env entries (some state) mark.toJson = (do
      require (Json.str mark.sealedId = .str sealedId)
        (.markOtherId sealedId (.str mark.sealedId))
      require ((mark.length : ℤ) ≤ state.length) (.markTruncated state.length mark.length)
      let last ← orRaise (pyIndex entries ((mark.length : ℤ) - 1))
      require (jsonOption mark.tip = .str (entryHash env last))
        (.markReplaced ((mark.length : ℤ) - 1))
      require (0 ≤ mark.sealSeq ∧ (entries[mark.sealSeq.toNat]?).map
        (fun e => Json.str (entryHash env e)) = some (.str mark.sealHash)) .markSealEntry) := by
  simp only [checkOneMark, SealMark.toJson, sealedState, Option.bind_some, hsealed]
  have htruthy : (((List.lookup "sealed_id" [("sealed_id", Json.str mark.sealedId),
      ("seal_seq", .int mark.sealSeq), ("seal_hash", .str mark.sealHash),
      ("length", .int mark.length), ("tip", jsonOption mark.tip)]).getD .null).truthy = true) := by
    simpa [Json.truthy] using hid
  simp only [htruthy]
  rfl

theorem jsonOption_eq_str_iff {s : Option String} {t : String} :
    jsonOption s = .str t ↔ s = some t := by
  cases s <;> simp [jsonOption]

theorem map_str_eq_iff {x : Option ChainEntry} {hash : String} :
    x.map (fun e => Json.str (entryHash env e)) = some (.str hash) ↔
      x.map (entryHash env) = some hash := by
  cases x <;> simp

variable (env) in
/-- Against a plain mark a chain matches, or the check refuses with the chain's own error. -/
theorem checkOneMark_toJson (hlength : 1 ≤ mark.length) (hstate : state.length = entries.length) :
    (checkOneMark env entries (some state) mark.toJson = .ok () ↔
        mark.Matches env entries state) ∧
      ChainOnly (checkOneMark env entries (some state) mark.toJson) := by
  by_cases hid : mark.sealedId = ""
  · rw [checkOneMark_empty hid]
    exact ⟨by simp [SealMark.Matches, hid], .error _⟩
  cases hsealed : state.sealedId with
  | none =>
    obtain ⟨c, hc⟩ := checkOneMark_unsealed env entries mark
      (show sealedState (some state) = none from hsealed)
    rw [hc]
    exact ⟨by simp [SealMark.Matches, hsealed], .error c⟩
  | some sealedId =>
    rw [checkOneMark_sealed hid hsealed]
    constructor
    · simp only [Except.bind_eq_ok, ensure_eq_ok, orRaise_eq_ok, jsonOption_eq_str_iff,
        map_str_eq_iff, Json.str.injEq, SealMark.Matches, hsealed, Option.some.injEq]
      constructor
      · rintro ⟨_, hsame, _, hle, last, hlast, _, htip, hseal⟩
        have hle' : mark.length ≤ entries.length := by omega
        obtain ⟨x, hx, hindex⟩ := pyIndex_pred hlength hle'
        obtain rfl : x = last := Except.ok.inj (hindex.symm.trans hlast)
        refine ⟨hid, hsame.symm, by omega, ?_, hseal⟩
        rw [hx, Option.map_some, htip]
      · rintro ⟨-, hsame, hle, htip, hseal⟩
        have hle' : mark.length ≤ entries.length := by omega
        obtain ⟨x, hx, hindex⟩ := pyIndex_pred hlength hle'
        rw [hx, Option.map_some] at htip
        exact ⟨(), hsame.symm, (), by omega, x, hindex, (), htip.symm, hseal⟩
    · refine .bind (.require _) fun _ _ => .bind (.require _) fun _ hle => ?_
      have hle' : (mark.length : ℤ) ≤ state.length := ensure_eq_ok.mp hle
      obtain ⟨x, -, hindex⟩ := pyIndex_pred hlength (show mark.length ≤ entries.length by omega)
      rw [hindex]
      exact .bind (.ok _) fun _ _ => .bind (.require _) fun _ _ => .require _

end Sealed

/-! ## A mark in flight -/

section Sides

variable {entries : List ChainEntry} {state : Option ChainState}

/-- The reasons collected so far do not decide. -/
theorem checkSides_reasons (sides : List Json) : ∀ reasons reasons' : List String,
    checkSides env entries state sides reasons = .ok () →
      checkSides env entries state sides reasons' = .ok () := by
  induction sides with
  | nil => intro _ _ h; cases h
  | cons side sides ih =>
    intro reasons reasons' h
    unfold checkSides at h ⊢
    split_ifs at h ⊢ with hnull hsealed
    · rfl
    · exact ih _ _ h
    · split at h
      · rfl
      · exact ih _ _ h
      · cases h

theorem checkSides_null (sides : List Json) (reasons : List String) :
    checkSides env entries state (.null :: sides) reasons = .ok () ↔
      sealedState state = none ∨ checkSides env entries state sides reasons = .ok () := by
  rw [checkSides, if_pos rfl]
  split_ifs with h
  · simp [h]
  · simp only [h, false_or]
    exact ⟨checkSides_reasons sides _ _, checkSides_reasons sides _ _⟩

theorem checkSides_mark {side : Json} (hside : side ≠ .null)
    (honly : ChainOnly (checkOneMark env entries state side)) (sides : List Json)
    (reasons : List String) :
    checkSides env entries state (side :: sides) reasons = .ok () ↔
      checkOneMark env entries state side = .ok () ∨
        checkSides env entries state sides reasons = .ok () := by
  rw [checkSides, if_neg hside]
  cases h : checkOneMark env entries state side with
  | ok u => simp
  | error e =>
    obtain ⟨c, rfl⟩ := honly e h
    simp only [reduceCtorEq, false_or]
    exact ⟨checkSides_reasons sides _ _, checkSides_reasons sides _ _⟩

theorem checkSealMark_inFlight (prev next : Json) :
    checkSealMark env entries state (inFlight prev next) =
      checkSides env entries state [next, prev] [] := rfl

theorem checkSealMark_toJson (mark : SealMark) :
    checkSealMark env entries state mark.toJson = checkOneMark env entries state mark.toJson := rfl

theorem SealMark.toJson_ne_null (mark : SealMark) : mark.toJson ≠ .null := by
  simp [SealMark.toJson]

end Sides

end Genesis
end Recto
