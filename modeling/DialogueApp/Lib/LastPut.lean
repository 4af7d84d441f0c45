import Mathlib.Data.List.Basic

/-!
# The value put in last

A cell that some elements of a sequence overwrite and the others leave alone holds, at the end, the
value of the last element that overwrites it.
-/

namespace List

variable {α β : Type*} (put : α → Option β)

/-- The value of the last element that puts one. -/
def lastPut (l : List α) : Option β := (l.filterMap put).getLast?

@[simp] theorem lastPut_nil : lastPut put [] = none := rfl

@[simp] theorem lastPut_concat (l : List α) (a : α) :
    lastPut put (l ++ [a]) = (put a).or (lastPut put l) := by
  rw [lastPut, lastPut, filterMap_append, getLast?_append]
  cases h : put a with
  | none => simp [h]
  | some b => simp [h]

/-- A further element overwrites the value or leaves it. -/
theorem getD_lastPut_concat (l : List α) (a : α) (d : β) :
    (lastPut put (l ++ [a])).getD d = (put a).getD ((lastPut put l).getD d) := by
  rw [lastPut_concat]
  cases put a <;> rfl

variable {put}

theorem exists_lastPut {l : List α} {a : α} {b : β} (ha : a ∈ l) (hb : put a = some b) :
    ∃ c, lastPut put l = some c := by
  have hmem : b ∈ l.filterMap put := mem_filterMap.2 ⟨a, ha, hb⟩
  exact ⟨_, getLast?_eq_some_getLast (ne_nil_of_mem hmem)⟩

end List
