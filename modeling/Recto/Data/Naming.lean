import Recto.Data.Dict

/-!
# A map kept under other names

A map may be kept in another one: each value written down, under a name computed
from its key. As long as no two of its keys share a name it can be read back,
added to and taken from there.
-/

namespace Recto

universe u v
variable {κ ν : Type u} {α β : Type v} [DecidableEq κ] [DecidableEq ν]

/-- What is kept is what is written for the map, each value under the name of its key. -/
structure KeptUnder (name : κ → ν) (writes : α → β → Prop) (m : Dict κ α) (kept : Dict ν β) :
    Prop where
  written : ∀ k v, m.get? k = some v → ∃ b, kept.get? (name k) = some b ∧ writes v b
  named : ∀ n b, kept.get? n = some b → ∃ k ∈ m, name k = n

/-- No other key of the map has the name of this one. -/
def OwnName (name : κ → ν) (m : Dict κ α) (k : κ) : Prop := ∀ k' ∈ m.keys, name k' = name k → k' = k

instance (name : κ → ν) (m : Dict κ α) (k : κ) : Decidable (OwnName name m k) :=
  inferInstanceAs (Decidable (∀ k' ∈ m.keys, name k' = name k → k' = k))

variable {name : κ → ν} {writes : α → β → Prop} {m : Dict κ α} {kept : Dict ν β} {k : κ} {v : α}
  {b : β}

theorem keptUnder_empty : KeptUnder name writes (∅ : Dict κ α) ∅ where
  written k v h := by cases h
  named n b h := by cases h

namespace KeptUnder

theorem get?_none (h : KeptUnder name writes m kept) (hown : OwnName name m k)
    (hnone : m.get? k = none) : kept.get? (name k) = none := by
  refine Option.eq_none_iff_forall_ne_some.mpr fun b hb => ?_
  obtain ⟨k', hk', hname⟩ := h.named (name k) b hb
  obtain rfl := hown k' (Dict.mem_keys.mpr hk') hname
  exact Dict.get?_eq_none_iff.mp hnone hk'

theorem set (h : KeptUnder name writes m kept) (hown : OwnName name m k) (hb : writes v b) :
    KeptUnder name writes (m.set k v) (kept.set (name k) b) where
  written k' v' hget := by
    rw [Dict.get?_set] at hget
    split_ifs at hget with hk
    · obtain rfl := Option.some.inj hget
      exact ⟨b, by rw [hk, Dict.get?_set_self], hb⟩
    · have hname : name k' ≠ name k := fun hname =>
        hk (hown k' (Dict.mem_keys.mpr (Dict.mem_of_get? hget)) hname)
      rw [Dict.get?_set_of_ne _ hname]
      exact h.written k' v' hget
  named n b' hget := by
    rw [Dict.get?_set] at hget
    split_ifs at hget with hn
    · exact ⟨k, Dict.mem_set.mpr (.inl rfl), hn.symm⟩
    · obtain ⟨k', hk', hname⟩ := h.named n b' hget
      exact ⟨k', Dict.mem_set.mpr (.inr hk'), hname⟩

theorem erase (h : KeptUnder name writes m kept) (hown : OwnName name m k) :
    KeptUnder name writes (m.erase k) (kept.erase (name k)) where
  written k' v' hget := by
    rw [Dict.get?_erase] at hget
    split_ifs at hget with hk
    have hname : name k' ≠ name k := fun hname =>
      hk (hown k' (Dict.mem_keys.mpr (Dict.mem_of_get? hget)) hname)
    rw [Dict.get?_erase, if_neg hname]
    exact h.written k' v' hget
  named n b' hget := by
    rw [Dict.get?_erase] at hget
    split_ifs at hget with hn
    obtain ⟨k', hk', hname⟩ := h.named n b' hget
    refine ⟨k', Dict.mem_erase.mpr ⟨?_, hk'⟩, hname⟩
    rintro rfl
    exact hn hname.symm

/-- Taking away what the map does not have. -/
theorem erase_absent (h : KeptUnder name writes m kept) (hnone : m.get? k = none) :
    KeptUnder name writes (m.erase k) kept where
  written k' v' hget := by
    rw [Dict.get?_erase] at hget
    split_ifs at hget
    exact h.written k' v' hget
  named n b' hget := by
    obtain ⟨k', hk', hname⟩ := h.named n b' hget
    refine ⟨k', Dict.mem_erase.mpr ⟨?_, hk'⟩, hname⟩
    rintro rfl
    exact Dict.get?_eq_none_iff.mp hnone hk'

end KeptUnder
end Recto
