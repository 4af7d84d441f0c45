import Mathlib.Data.List.Basic
import Mathlib.Order.Lattice

/-!
# The first of a list in descending order

A list in descending order of a key is headed by an element with the largest key, and by the one
listed first where several have it.

`Listed r l m` says that `l` lists the elements of `m` in the strict order `r`.  There is one such
list (`Listed.unique`), and an element that is added with a key above all others comes in front of
it (`Listed.cons_of_latest`).
-/

namespace List

variable {α β : Type*} [LinearOrder β]

/-- Each other element of `m` has a smaller key than `a`, or the same key and no place before `a` in
the list `l`. -/
def Leads (key : α → β) (l m : List α) (a : α) : Prop :=
  ∀ c ∈ m, c ≠ a →
    key c < key a ∨ (key c = key a ∧ ∃ before after, l = before ++ a :: after ∧ c ∉ before)

/-- A list in descending order starts with the element that leads. -/
theorem head?_eq_some_iff_leads {key : α → β} {l m : List α} {a : α} (hperm : l.Perm m)
    (hsorted : l.Pairwise fun c d => key d ≤ key c) (ha : a ∈ m) :
    l.head? = some a ↔ Leads key l m a := by
  cases l with
  | nil =>
    obtain rfl := hperm.nil_eq
    exact absurd ha not_mem_nil
  | cons b l =>
    obtain ⟨hlarge, -⟩ := pairwise_cons.1 hsorted
    constructor
    · intro h c hc hne
      obtain rfl : b = a := Option.some.inj h
      have hmem : c ∈ l := (mem_cons.1 (hperm.mem_iff.2 hc)).resolve_left hne
      rcases (hlarge c hmem).lt_or_eq with hlt | heq
      · exact Or.inl hlt
      · exact Or.inr ⟨heq, [], l, rfl, not_mem_nil⟩
    · intro h
      by_contra hne
      have hba : b ≠ a := fun heq => hne (congrArg some heq)
      have hmem : a ∈ l := (mem_cons.1 (hperm.mem_iff.2 ha)).resolve_left hba.symm
      rcases h b (hperm.mem_iff.1 mem_cons_self) hba with hlt | ⟨-, before, after, heq, hno⟩
      · exact absurd hlt (not_lt_of_ge (hlarge a hmem))
      · -- `b` is the first of the list, so nothing stands before `a`
        cases before with
        | nil => exact hba (List.cons.inj heq).1
        | cons d before =>
          obtain ⟨rfl, -⟩ := List.cons.inj heq
          exact hno mem_cons_self

/-! ## Lists in a strict order -/

/-- `l` has the elements of `m`, in the order `r`. -/
structure Listed (r : α → α → Prop) (l m : List α) : Prop where
  perm : l.Perm m
  sorted : l.Pairwise r

section listed

variable {r : α → α → Prop} (hasymm : ∀ a b, r a b → ¬ r b a) {l l' m : List α}

include hasymm in
theorem Listed.unique (h : Listed r l m) (h' : Listed r l' m) : l = l' :=
  Perm.eq_of_pairwise (fun a b _ _ hab hba => absurd hba (hasymm a b hab)) h.sorted h'.sorted
    (h.perm.trans h'.perm.symm)

include hasymm in
/-- A new element with the largest key is listed in front of the others. -/
theorem Listed.cons_of_latest {key : α → β} (hkey : ∀ a b, r a b → key b ≤ key a) {a : α}
    (hlate : ∀ b ∈ m, key b < key a) (h : Listed r l (m ++ [a])) (h' : Listed r l' m) :
    l = a :: l' := by
  obtain ⟨before, after, rfl⟩ := append_of_mem (h.perm.mem_iff.2 (mem_append_right m mem_cons_self))
  have hsorted := h.sorted
  rw [pairwise_append] at hsorted
  -- what stands before `a` has a key as large as its own, and is no element of `m`
  have hnone : before = [] := by
    rw [eq_nil_iff_forall_not_mem]
    intro b hb
    have hba := hsorted.2.2 b hb a mem_cons_self
    rcases mem_append.1 (h.perm.mem_iff.1 (mem_append_left _ hb)) with hold | hself
    · exact absurd (hlate b hold) (not_lt_of_ge (hkey b a hba))
    · obtain rfl := mem_singleton.1 hself
      exact hasymm b b hba hba
  subst hnone
  have hperm : after.Perm m := by
    have hcons : (a :: after).Perm (a :: m) := h.perm.trans perm_append_comm
    exact hcons.cons_inv
  rw [nil_append, Listed.unique hasymm ⟨hperm, (pairwise_cons.1 h.sorted).2⟩ h']

end listed

end List
