import Mathlib.Data.List.Nodup

/-!
# Lists with keys

A collection is a list of entries, each with a key.  `upsert key x l` writes `x`, in place of an
entry with the same key if there is one; entries with other keys stay.  Where no key is written
twice, the collection is the log of what has been written.
-/

namespace List

variable {α κ : Type*} [DecidableEq κ] (key : α → κ)

/-- Write an entry under its key. -/
def upsert (x : α) (l : List α) : List α := l.filter (fun y => key y ≠ key x) ++ [x]

variable {key} {x y : α} {l : List α}

theorem mem_upsert : y ∈ upsert key x l ↔ (y ∈ l ∧ key y ≠ key x) ∨ y = x := by
  simp [upsert]

/-- An entry with a new key is added at the end. -/
theorem upsert_of_fresh (h : ∀ y ∈ l, key y ≠ key x) : upsert key x l = l ++ [x] := by
  rw [upsert, filter_eq_self.2]
  intro y hy
  exact decide_eq_true (h y hy)

/-- Keys stay distinct when an entry with a new one is added. -/
theorem nodup_map_concat {γ : Type*} {f : α → γ} (hl : (l.map f).Nodup) (h : ∀ y ∈ l, f y ≠ f x) :
    ((l ++ [x]).map f).Nodup := by
  rw [map_append, nodup_append]
  refine ⟨hl, nodup_singleton _, ?_⟩
  intro a ha b hb
  obtain ⟨y, hy, rfl⟩ := mem_map.1 ha
  rw [mem_singleton.1 hb]
  exact h y hy

end List
