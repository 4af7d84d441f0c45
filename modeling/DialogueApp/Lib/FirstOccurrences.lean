import Mathlib.Data.List.Induction
import Mathlib.Data.List.Nodup

/-!
# First occurrences

`firstOccurrences l` keeps each entry of `l` once, where it first occurs.  It is computed the way
such loops are written: walk the list and append every entry that is not there yet.
-/

namespace List

variable {α : Type*} [DecidableEq α]

/-- Append an entry unless it is there already. -/
def appendNew (acc : List α) (x : α) : List α := if x ∈ acc then acc else acc ++ [x]

/-- Each entry of the list once, in order of first occurrence. -/
def firstOccurrences (l : List α) : List α := l.foldl appendNew []

theorem firstOccurrences_concat (l : List α) (x : α) :
    (l ++ [x]).firstOccurrences = l.firstOccurrences.appendNew x := by
  simp [firstOccurrences, List.foldl_append]

theorem mem_appendNew {acc : List α} {x a : α} : a ∈ acc.appendNew x ↔ a ∈ acc ∨ a = x := by
  unfold appendNew
  split_ifs with h
  · constructor
    · exact Or.inl
    · rintro (ha | rfl)
      · exact ha
      · exact h
  · simp

theorem mem_firstOccurrences {l : List α} {a : α} : a ∈ l.firstOccurrences ↔ a ∈ l := by
  induction l using List.reverseRecOn with
  | nil => rfl
  | append_singleton l x ih => simp [firstOccurrences_concat, mem_appendNew, ih]

theorem nodup_firstOccurrences (l : List α) : l.firstOccurrences.Nodup := by
  induction l using List.reverseRecOn with
  | nil => exact List.nodup_nil
  | append_singleton l x ih =>
    rw [firstOccurrences_concat, appendNew]
    split_ifs with h
    · exact ih
    · exact List.nodup_append.2 ⟨ih, List.nodup_singleton x, fun a ha b hb hab => h (by
        rw [List.mem_singleton] at hb
        rwa [← hb, ← hab])⟩

/-- The entries stand in the order in which they first occur in the list. -/
theorem pairwise_firstOccurrences (l : List α) :
    l.firstOccurrences.Pairwise fun a b => l.idxOf a < l.idxOf b := by
  induction l using List.reverseRecOn with
  | nil => exact List.Pairwise.nil
  | append_singleton l x ih =>
    have hkeep : l.firstOccurrences.Pairwise
        fun a b => (l ++ [x]).idxOf a < (l ++ [x]).idxOf b := by
      refine ih.imp_of_mem fun {a b} ha hb h => ?_
      rw [mem_firstOccurrences] at ha hb
      rwa [List.idxOf_append_of_mem ha, List.idxOf_append_of_mem hb]
    rw [firstOccurrences_concat, appendNew]
    split_ifs with h
    · exact hkeep
    · refine List.pairwise_append.2 ⟨hkeep, List.pairwise_singleton _ _, fun a ha b hb => ?_⟩
      obtain rfl := List.mem_singleton.1 hb
      rw [mem_firstOccurrences] at ha h
      rw [List.idxOf_append_of_mem ha, List.idxOf_append_of_notMem h]
      have := List.idxOf_lt_length_of_mem ha
      omega

end List
