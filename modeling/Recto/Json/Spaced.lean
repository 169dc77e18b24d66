import Recto.Json.Limits

/-!
# Flat messages

`json.dumps` with its own separators, for objects of strings and booleans, and
that `json.loads` reads them back.
-/

namespace Recto
namespace Json

/-- The fields of a flat object and its closing brace. -/
def spacedFields : List (String × Json) → List Char
  | [] => ['}']
  | [(k, x)] => quote k ++ ':' :: ' ' :: (render x ++ ['}'])
  | (k, x) :: f :: fs =>
      quote k ++ ':' :: ' ' :: (render x ++ ',' :: ' ' :: spacedFields (f :: fs))

/-- `json.dumps(d)` of an object whose values are flat -/
def dumpsFlat (fs : List (String × Json)) : List Char := '{' :: spacedFields fs

/-- A string or a boolean. -/
def IsFlat : Json → Prop
  | .str _ => True
  | .bool _ => True
  | _ => False

theorem scanWithin_flat {x : Json} (h : IsFlat x) (fuel depth : ℕ) (rest : List Char) :
    scanWithin (fuel + 1) depth (render x ++ rest) = .ok (x, rest) := by
  cases x with
  | bool b => cases b <;> simp [render, scanWithin, scanLeaf, scanOnce, scanWord]
  | str s =>
    rw [render, quote_append, scanWithin_leaf _ _ (by decide) (by decide), scanLeaf, scanOnce]
    simp only [if_true, scanString_quote, Option.map_some, String.ofList_toList]
  | _ => exact h.elim

theorem startsValue_flat {x : Json} (h : IsFlat x) : StartsValue (render x) := by
  cases x with
  | bool b => cases b <;> exact ⟨_, _, rfl, rfl, by decide⟩
  | str s => exact ⟨'"', _, rfl, rfl, by decide⟩
  | _ => exact h.elim

theorem spacedFields_cons (k : String) (x : Json) (fs : List (String × Json)) :
    ∃ tail, spacedFields ((k, x) :: fs) = '"' :: tail := by
  cases fs <;> exact ⟨_, by rw [spacedFields, quote_append]⟩

theorem fieldsWithin_spaced (k : String) (x : Json) (fs : List (String × Json)) (fuel depth : ℕ)
    (rest : List Char) (hx : IsFlat x) (hfs : ∀ f ∈ fs, IsFlat f.2) (hfuel : fs.length + 2 ≤ fuel) :
    fieldsWithin fuel depth (spacedFields ((k, x) :: fs) ++ rest) = .ok ((k, x) :: fs, rest) := by
  induction fs generalizing k x fuel with
  | nil =>
    obtain ⟨fuel, rfl⟩ := Nat.exists_eq_add_of_le' hfuel
    have hscan := scanWithin_flat hx (fuel + 0) depth ('}' :: rest)
    simp only [spacedFields, List.append_assoc, quote_append, List.cons_append, List.nil_append,
      List.length_nil, Nat.zero_add, fieldsWithin, scanString_quote,
      skipWs_cons (show isWs ':' = false from rfl), skipWs_space,
      ((startsValue_flat hx).append _).skipWs_eq, hscan,
      skipWs_cons (show isWs '}' = false from rfl), String.ofList_toList]
  | cons f fs ih =>
    obtain ⟨l, y⟩ := f
    obtain ⟨fuel, rfl⟩ := Nat.exists_eq_add_of_le' (show 1 ≤ fuel by omega)
    obtain ⟨fuel', rfl⟩ := Nat.exists_eq_add_of_le' (show 1 ≤ fuel by
      simp only [List.length_cons] at hfuel
      omega)
    have hscan := scanWithin_flat hx fuel' depth
      (',' :: ' ' :: (spacedFields ((l, y) :: fs) ++ rest))
    obtain ⟨tail, htail⟩ := spacedFields_cons l y fs
    have hrest := ih l y (fuel' + 1) (hfs (l, y) List.mem_cons_self)
      (fun f hf => hfs f (List.mem_cons_of_mem _ hf))
      (show fs.length + 2 ≤ fuel' + 1 by
        simp only [List.length_cons] at hfuel
        omega)
    have hskip : skipWs (spacedFields ((l, y) :: fs) ++ rest) = spacedFields ((l, y) :: fs) ++ rest := by
      rw [htail]
      exact skipWs_cons rfl _
    simp only [spacedFields, List.append_assoc, quote_append, List.cons_append, fieldsWithin,
      scanString_quote, skipWs_cons (show isWs ':' = false from rfl), skipWs_space,
      ((startsValue_flat hx).append _).skipWs_eq, hscan,
      skipWs_cons (show isWs ',' = false from rfl), hskip, hrest, Except.map, String.ofList_toList]

/-- A flat message is read back. -/
theorem loadsWithin_dumpsFlat {depth : ℕ} {k : String} {x : Json} {fs : List (String × Json)}
    (hdepth : 0 < depth) (hflat : ∀ f ∈ (k, x) :: fs, IsFlat f.2)
    (hkeys : (((k, x) :: fs).map Prod.fst).Nodup) :
    loadsWithin depth (dumpsFlat ((k, x) :: fs)) = .ok (.obj ((k, x) :: fs)) := by
  obtain ⟨tail, htail⟩ := spacedFields_cons k x fs
  have hlength : fs.length + 2 ≤ 2 * (dumpsFlat ((k, x) :: fs)).length + 1 := by
    have hfields : ∀ (k : String) (x : Json), fs.length ≤ (spacedFields ((k, x) :: fs)).length := by
      clear hflat hkeys htail
      induction fs with
      | nil => simp
      | cons f fs ih =>
        obtain ⟨l, y⟩ := f
        intro k x
        have := ih l y
        simp only [spacedFields, List.length_cons, List.length_append] at this ⊢
        omega
    have := hfields k x
    rw [dumpsFlat, List.length_cons]
    omega
  have hfields := fieldsWithin_spaced k x fs (2 * (dumpsFlat ((k, x) :: fs)).length + 1) (depth - 1)
    [] (hflat _ List.mem_cons_self)
    (fun f hf => hflat f (List.mem_cons_of_mem _ hf)) hlength
  rw [List.append_nil] at hfields
  have hscan : scanWithin (2 * (dumpsFlat ((k, x) :: fs)).length + 2) depth
      (dumpsFlat ((k, x) :: fs)) = .ok (.obj ((k, x) :: fs), []) := by
    change scanWithin _ depth ('{' :: spacedFields ((k, x) :: fs)) = _
    rw [scanWithin, if_pos rfl, if_neg hdepth.ne']
    rw [htail] at hfields ⊢
    rw [skipWs_cons rfl]
    simp [hfields, dictOfPairs_of_nodup hkeys, Except.map]
  rw [loadsWithin, dumpsFlat, skipWs_cons rfl, ← dumpsFlat, hscan]
  rfl

end Json
end Recto
