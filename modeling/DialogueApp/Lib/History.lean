import Mathlib.Data.List.Basic

/-!
# Histories that follow a rule

A history is a list of entries, the oldest first.  `EachAfter A` says that every entry meets the
rule `A` with the entries before it.  A history grows at its end, so `eachAfter_append` and
`eachAfter_concat` are what a step lemma needs.
-/

namespace History

variable {α : Type*}

/-- Every entry meets `A` with the entries before it. -/
def EachAfter (A : List α → α → Prop) (l : List α) : Prop :=
  ∀ before a after, l = before ++ a :: after → A before a

@[simp] theorem eachAfter_nil (A : List α → α → Prop) : EachAfter A [] := by
  intro before a after h
  simp at h

theorem eachAfter_cons {A : List α → α → Prop} {a : α} {l : List α} :
    EachAfter A (a :: l) ↔ A [] a ∧ EachAfter (fun before => A (a :: before)) l := by
  constructor
  · intro h
    refine ⟨h [] a l rfl, fun before b after hl => h (a :: before) b after ?_⟩
    rw [hl, List.cons_append]
  · rintro ⟨ha, hl⟩ before b after h
    cases before with
    | nil =>
      obtain ⟨rfl, -⟩ := List.cons.inj h
      exact ha
    | cons c before =>
      obtain ⟨rfl, rfl⟩ := List.cons.inj h
      exact hl before b after rfl

theorem eachAfter_append {A : List α → α → Prop} {l m : List α} :
    EachAfter A (l ++ m) ↔ EachAfter A l ∧ EachAfter (fun before => A (l ++ before)) m := by
  induction l generalizing A with
  | nil => simp
  | cons a l ih =>
    rw [List.cons_append, eachAfter_cons, eachAfter_cons, ih, and_assoc]
    rfl

theorem eachAfter_concat {A : List α → α → Prop} {l : List α} {a : α} :
    EachAfter A (l ++ [a]) ↔ EachAfter A l ∧ A l a := by
  rw [eachAfter_append, eachAfter_cons, List.append_nil, and_iff_left (eachAfter_nil _)]

end History
