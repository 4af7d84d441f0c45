import DialogueApp.Lib.Shared

/-!
# Interleavings with the same lanes

Events use lanes, and two events without a common lane commute.  Then the state after a run depends on
the order of the events within each lane only: `run_eq_of_lanes`.  `advance_comm` has it for parts
around a shared state, where one of the two events leaves the shared state alone and does not read it.
-/

namespace Interleaving

open Runs

variable {σ ε κ : Type*} {step : σ → ε → Option σ}

/-- Two events that can be taken in either order, to the same end. -/
def Commute (step : σ → ε → Option σ) (e f : ε) : Prop :=
  ∀ s, run step s [e, f] = run step s [f, e]

/-- An event that commutes with all of a run can be taken before it. -/
theorem run_move {e : ε} {before : List ε} (h : ∀ f ∈ before, Commute step f e) (s : σ)
    (after : List ε) : run step s (before ++ e :: after) = run step s (e :: (before ++ after)) := by
  induction before generalizing s with
  | nil => rfl
  | cons f before ih =>
    obtain ⟨hf, hbefore⟩ := List.forall_mem_cons.1 h
    have hswap : ∀ rest, run step s (f :: e :: rest) = run step s (e :: f :: rest) := by
      intro rest
      have hboth := congrArg (Option.bind · fun t => run step t rest) (hf s)
      rwa [← run_append, ← run_append] at hboth
    calc run step s (f :: (before ++ e :: after))
        = run step s (f :: e :: (before ++ after)) := by
          rw [run_cons, run_cons]
          exact congrArg _ (funext fun t => ih hbefore t)
      _ = run step s (e :: f :: (before ++ after)) := hswap _

/-- The first event that has a lane in common with `e`, if there is one. -/
theorem exists_first (uses : κ → ε → Bool) (e : ε) (es : List ε) :
    (∀ f ∈ es, ∀ k, uses k e = true → uses k f = false) ∨
    ∃ before f after k, es = before ++ f :: after ∧ uses k e = true ∧ uses k f = true ∧
      ∀ f' ∈ before, ∀ k, uses k e = true → uses k f' = false := by
  induction es with
  | nil => exact Or.inl nofun
  | cons f es ih =>
    by_cases hf : ∃ k, uses k e = true ∧ uses k f = true
    · obtain ⟨k, he, hfk⟩ := hf
      exact Or.inr ⟨[], f, es, k, rfl, he, hfk, nofun⟩
    · have hapart : ∀ k, uses k e = true → uses k f = false := by
        intro k he
        exact Bool.eq_false_iff.2 fun hfk => hf ⟨k, he, hfk⟩
      rcases ih with hall | ⟨before, g, after, k, rfl, he, hg, hbefore⟩
      · exact Or.inl (List.forall_mem_cons.2 ⟨hapart, hall⟩)
      · exact Or.inr ⟨f :: before, g, after, k, rfl, he, hg,
          List.forall_mem_cons.2 ⟨hapart, hbefore⟩⟩

/-- Events without a common lane commute, so the order within each lane decides. -/
theorem run_eq_of_lanes (uses : κ → ε → Bool) (hlane : ∀ e, ∃ k, uses k e = true)
    (hcomm : ∀ e f, (∀ k, uses k e = true → uses k f = false) → Commute step f e) {es es' : List ε}
    (h : ∀ k, es.filter (uses k) = es'.filter (uses k)) (s : σ) :
    run step s es = run step s es' := by
  induction es generalizing es' s with
  | nil =>
    cases es' with
    | nil => rfl
    | cons f es' =>
      obtain ⟨k, hf⟩ := hlane f
      have hk := h k
      rw [List.filter_cons_of_pos hf] at hk
      cases hk
  | cons e es ih =>
    rcases exists_first uses e es' with
      hnone | ⟨before, f, after, k, rfl, he, hf, hbefore⟩
    · -- a lane of `e` would be empty
      obtain ⟨k, he⟩ := hlane e
      have hnil : es'.filter (uses k) = [] :=
        List.filter_eq_nil_iff.2 fun f hf => Bool.eq_false_iff.1 (hnone f hf k he)
      have hk := h k
      rw [List.filter_cons_of_pos he, hnil] at hk
      cases hk
    · have hempty : ∀ k, uses k e = true → before.filter (uses k) = [] := fun k he =>
        List.filter_eq_nil_iff.2 fun f' hf' => Bool.eq_false_iff.1 (hbefore f' hf' k he)
      -- the first event in a lane of `e` is `e`
      have hfirst : e :: es.filter (uses k) = f :: after.filter (uses k) := by
        have hk := h k
        rwa [List.filter_cons_of_pos he, List.filter_append, hempty k he,
          List.filter_cons_of_pos hf] at hk
      obtain rfl : e = f := (List.cons.inj hfirst).1
      have hrest : ∀ k, es.filter (uses k) = (before ++ after).filter (uses k) := by
        intro k
        have hk := h k
        rw [List.filter_append] at hk
        rw [List.filter_append]
        cases hek : uses k e with
        | true =>
          rw [List.filter_cons_of_pos hek, List.filter_cons_of_pos hek, hempty k hek] at hk
          rw [hempty k hek]
          exact (List.cons.inj hk).2
        | false =>
          rwa [List.filter_cons_of_neg (by rw [hek]; exact Bool.false_ne_true),
            List.filter_cons_of_neg (by rw [hek]; exact Bool.false_ne_true)] at hk
      rw [run_move (fun f' hf' => hcomm e f' (hbefore f' hf')), run_cons, run_cons]
      exact congrArg _ (funext fun t => ih hrest t)

theorem Commute.symm {e f : ε} (h : Commute step e f) : Commute step f e := fun s => (h s).symm

end Interleaving

namespace Shared

open Interleaving

variable {ι σ π ε : Type*} [DecidableEq ι] {step : ι → σ → π → ε → Option (σ × π)}

/-- The part does not look at the shared state and leaves it alone. -/
def Local (step : ι → σ → π → ε → Option (σ × π)) (i : ι) (e : ε) : Prop :=
  ∃ f : π → Option π, ∀ s p, step i s p e = (f p).map fun q => (s, q)

/-- The part may look at the shared state and leaves it alone. -/
def Reads (step : ι → σ → π → ε → Option (σ × π)) (i : ι) (e : ε) : Prop :=
  ∃ f : σ → π → Option π, ∀ s p, step i s p e = (f s p).map fun q => (s, q)

/-- An event that is local commutes with every event of another part. -/
theorem Local.commute {i j : ι} {e e' : ε} (h : Local step i e) (hij : i ≠ j) :
    Commute (advance step) (i, e) (j, e') := by
  obtain ⟨f, hf⟩ := h
  intro x
  simp only [Runs.run_cons, Runs.run_nil, advance, hf]
  cases hi : f (x.parts i) with
  | none =>
    cases step j x.shared (x.parts j) e' with
    | none => rfl
    | some y => simp [Function.update_of_ne hij, hi]
  | some p =>
    simp only [Option.map_some, Option.bind_some, Function.update_of_ne (Ne.symm hij)]
    cases step j x.shared (x.parts j) e' with
    | none => rfl
    | some y => simp [Function.update_of_ne hij, hi, Function.update_comm hij]

/-- Two events that leave the shared state alone commute, for different parts. -/
theorem Reads.commute {i j : ι} {e e' : ε} (h : Reads step i e) (h' : Reads step j e')
    (hij : i ≠ j) : Commute (advance step) (i, e) (j, e') := by
  obtain ⟨f, hf⟩ := h
  obtain ⟨g, hg⟩ := h'
  intro x
  simp only [Runs.run_cons, Runs.run_nil, advance, hf, hg]
  cases hi : f x.shared (x.parts i) with
  | none =>
    cases g x.shared (x.parts j) with
    | none => rfl
    | some q => simp [Function.update_of_ne hij, hi]
  | some p =>
    simp only [Option.map_some, Option.bind_some, Function.update_of_ne (Ne.symm hij)]
    cases g x.shared (x.parts j) with
    | none => rfl
    | some q => simp [Function.update_of_ne hij, hi, Function.update_comm hij]

end Shared
