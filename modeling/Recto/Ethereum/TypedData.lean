import Mathlib.Data.String.Basic
import Recto.Data.DepthFirst
import Recto.Data.Dict
import Recto.Text.Chars

/-!
# The types of typed data

The struct types a typed-data document refers to, and the text that names them:
the primary type first, then the others in order. A type may refer to itself or
to one that refers back.
-/

namespace Recto
namespace TypedData

/-- One entry of a type's list of fields. -/
structure Field where
  name : String
  type : String
  deriving DecidableEq, Repr

/-- `typed_data["types"]` -/
abbrev Types := Dict String (List Field)

/-- `t.split("[", 1)[0]` -/
def base (t : String) : String := String.ofList ((chars t).takeWhile (· ≠ '['))

/-- `_find_type_dependencies`, `found` being the set handed on; `none` when `fuel` calls inside one
another are not enough. -/
def findTypeDependencies (types : Types) : ℕ → String → List String → Option (List String)
  | 0, _, _ => none
  | fuel + 1, primaryType, found =>
      if base primaryType ∈ found then some found
      else
        match types.get? (base primaryType) with
        | none => some found
        | some fields =>
            fields.foldlM (fun found field => findTypeDependencies types fuel field.type found)
              (base primaryType :: found)

/-- The `ValueError` of `_encode_type`. -/
inductive TypeError where
  | notPresent (dep primaryType : String)
  deriving DecidableEq, Repr

/-- `Name(type1 name1,...)` -/
def signature (dep : String) (fields : List Field) : String :=
  dep ++ "(" ++ String.intercalate "," (fields.map fun f => f.type ++ " " ++ f.name) ++ ")"

/-- One turn of the loop of `_encode_type`. -/
def partOf (types : Types) (primaryType dep : String) : Except TypeError String :=
  match types.get? dep with
  | none => .error (.notPresent dep primaryType)
  | some fields => .ok (signature dep fields)

/-- `_encode_type`. One call more than there are types is deep enough. -/
def encodeType (types : Types) (primaryType : String) : Except TypeError String :=
  let deps := (findTypeDependencies types (types.length + 1) primaryType []).getD []
  let sortedDeps := primaryType :: (deps.filter (· ≠ primaryType)).insertionSort (· ≤ ·)
  (sortedDeps.mapM (partOf types primaryType)).map String.join

/-! ## The types that can be reached -/

/-- A field of `s` is of type `t`, or an array of it. -/
def RefersTo (types : Types) (s t : String) : Prop :=
  ∃ fields, types.get? s = some fields ∧ ∃ f ∈ fields, base f.type = t

/-- A struct type of the table that can be reached from the primary type. -/
def Reachable (types : Types) (primaryType t : String) : Prop :=
  Relation.ReflTransGen (RefersTo types) (base primaryType) t ∧ t ∈ types

/-- The fields of a struct type, by their base types. -/
def edges (types : Types) (t : String) : Option (List String) :=
  (types.get? t).map fun fields => fields.map fun f => base f.type

variable {types : Types} {primaryType s t : String}

theorem edge_iff : Edge (edges types) s t ↔ RefersTo types s t := by
  unfold Edge RefersTo edges
  simp only [Option.map_eq_some_iff]
  constructor
  · rintro ⟨-, ⟨fields, hfields, rfl⟩, ht⟩
    exact ⟨fields, hfields, List.mem_map.mp ht⟩
  · rintro ⟨fields, hfields, ht⟩
    exact ⟨_, ⟨fields, hfields, rfl⟩, List.mem_map.mpr ht⟩

theorem reaches_iff : Reaches (edges types) (base primaryType) t ↔ Reachable types primaryType t := by
  have hedge : Edge (edges types) = RefersTo types := by
    funext s t
    exact propext edge_iff
  unfold Reaches Reachable
  rw [hedge, Dict.mem_iff]
  simp [edges]

/-- The search is the walk along the fields. -/
theorem findTypeDependencies_eq (fuel : ℕ) (primaryType : String) (found : List String) :
    findTypeDependencies types fuel primaryType found =
      visit (edges types) fuel (base primaryType) found := by
  induction fuel generalizing primaryType found with
  | zero => rfl
  | succ fuel ih =>
    rw [findTypeDependencies, visit]
    cases hfields : types.get? (base primaryType) with
    | none => simp only [edges, hfields, Option.map_none]
    | some fields =>
      simp only [edges, hfields, Option.map_some, List.foldlM_map, ih]

/-- The search ends, and finds the struct types that can be reached, each once. -/
theorem exists_dependencies (types : Types) (primaryType : String) :
    ∃ deps, (∀ fuel, types.length < fuel →
        findTypeDependencies types fuel primaryType [] = some deps) ∧
      deps.Nodup ∧ ∀ t, t ∈ deps ↔ Reachable types primaryType t := by
  have hnodes : ∀ t bs, edges types t = some bs → t ∈ types.keys := by
    intro t bs h
    obtain ⟨fields, hfields, -⟩ := Option.map_eq_some_iff.mp h
    exact Dict.mem_of_get? hfields
  obtain ⟨deps, hvisit, hnodup, hmem⟩ := exists_visit hnodes (base primaryType)
  refine ⟨deps, fun fuel hfuel => ?_, hnodup, fun t => (hmem t).trans reaches_iff⟩
  rw [findTypeDependencies_eq]
  exact hvisit fuel (by rwa [Dict.length_keys])

/-! ## The text of a type -/

/-- The signature of a type of the table. -/
def signatureOf (types : Types) (t : String) : String := signature t ((types.get? t).getD [])

theorem mapM_partOf {ts : List String} (h : ∀ t ∈ ts, t ∈ types) :
    ts.mapM (partOf types primaryType) = .ok (ts.map (signatureOf types)) := by
  induction ts with
  | nil => rfl
  | cons t ts ih =>
    obtain ⟨fields, hfields⟩ := Dict.mem_iff.mp (h t (by simp))
    rw [List.mapM_cons, ih fun t' ht' => h t' (List.mem_cons_of_mem t ht')]
    simp [partOf, hfields, signatureOf, bind, Except.bind, pure, Except.pure]

/-- Distinct names in order, with one left out. -/
theorem pairwise_lt_sorted {deps : List String} (h : deps.Nodup) (p : String → Bool) :
    ((deps.filter p).insertionSort (· ≤ ·)).Pairwise (· < ·) := by
  have hnodup : ((deps.filter p).insertionSort (· ≤ ·)).Nodup :=
    ((List.perm_insertionSort _ _).nodup_iff).mpr (h.filter p)
  have hsorted := List.pairwise_insertionSort (· ≤ ·) (deps.filter p)
  exact (hsorted.and hnodup).imp fun hle => lt_of_le_of_ne hle.1 hle.2

theorem findTypeDependencies_congr {types' : Types} (h : ∀ t, types'.get? t = types.get? t)
    (fuel : ℕ) (primaryType : String) (found : List String) :
    findTypeDependencies types' fuel primaryType found =
      findTypeDependencies types fuel primaryType found := by
  induction fuel generalizing primaryType found with
  | zero => rfl
  | succ fuel ih => simp only [findTypeDependencies, h, ih]

theorem get?_perm {types' : Types} (h : types'.items.Perm types.items) (t : String) :
    types'.get? t = types.get? t := by
  refine Option.ext fun fields => ?_
  rw [Dict.get?_eq_some_iff, Dict.get?_eq_some_iff, h.mem_iff]

theorem encodeType_perm {types' : Types} (h : types'.items.Perm types.items) (primaryType : String) :
    encodeType types' primaryType = encodeType types primaryType := by
  have hlength : types'.length = types.length := h.length_eq
  have hpart : partOf types' primaryType = partOf types primaryType := by
    funext dep
    rw [partOf, partOf, get?_perm h]
  simp only [encodeType, hlength, hpart, findTypeDependencies_congr (get?_perm h)]

/-- The text, in terms of the dependencies. -/
theorem encodeType_eq {deps : List String} (hmem : ∀ t ∈ deps, t ∈ types)
    (hfind : findTypeDependencies types (types.length + 1) primaryType [] = some deps) :
    encodeType types primaryType =
      if primaryType ∈ types then
        .ok (String.join ((primaryType :: (deps.filter (· ≠ primaryType)).insertionSort
          (· ≤ ·)).map (signatureOf types)))
      else .error (.notPresent primaryType primaryType) := by
  have hall : ∀ t ∈ (deps.filter (· ≠ primaryType)).insertionSort (· ≤ ·), t ∈ types := by
    intro t ht
    rw [List.mem_insertionSort] at ht
    exact hmem t (List.mem_of_mem_filter ht)
  simp only [encodeType, hfind, Option.getD_some]
  split_ifs with hprimary
  · rw [mapM_partOf (List.forall_mem_cons.mpr ⟨hprimary, hall⟩)]
    rfl
  · rw [List.mapM_cons, partOf, Dict.get?_eq_none_iff.mpr hprimary]
    rfl

theorem exists_encodeType (h : primaryType ∈ types) :
    ∃ text, encodeType types primaryType = .ok text := by
  obtain ⟨deps, hfind, -, hmem⟩ := exists_dependencies types primaryType
  exact ⟨_, by rw [encodeType_eq (fun t ht => ((hmem t).mp ht).2) (hfind _ (Nat.lt_succ_self _)),
    if_pos h]⟩

/-- Two types that refer to each other, and one that nothing refers to. -/
example : encodeType ⟨[("Mail", [⟨"to", "Person[]"⟩, ⟨"text", "string"⟩]), ("Alone", []),
    ("Person", [⟨"inbox", "Mail[2][]"⟩, ⟨"friends", "Person[]"⟩])], by decide⟩ "Mail" =
      .ok "Mail(Person[] to,string text)Person(Mail[2][] inbox,Person[] friends)" := by
  decide +kernel

end TypedData
end Recto
