import Mathlib.Data.List.Basic
import Mathlib.Algebra.GroupWithZero.Nat

/-!
# Runs of a partial step function

A component is given by a step function `step : σ → ε → Option σ`, where `none` says that the event
cannot happen in the state.  `run` takes a whole list of events; `AllSteps ok` says that every step
of the run meets the condition `ok` on the state before it and its event; `EveryState P` says that
`P` holds in every state the run passes through.

* `run_invariant`, `run_invariant_of_allSteps`: an invariant of one step is one of the whole run.
* `everyState_iff_allSteps`: where a step keeps `P` exactly when it meets `ok`, a run keeps `P` in
  every state exactly when all its steps meet `ok`.
* `allSteps_congr`, `allSteps_congr_of`: conditions on a step that agree under an invariant agree over
  runs.
* `allSteps_of_not_bad`: where a step that misses `ok` leaves a lasting mark, a run that ends
  without the mark has met `ok` at every step.
* `iff_allSteps`: with that, the last state of a run tells whether all its steps have met `ok`.
* `run_verdict`: an invariant may speak of whether the steps so far have met `ok`.
* `run_potential`: where a potential pays for each event out of its decrease and what the event grants,
  it pays for the whole run.
* `run_replicate_unique`: a repeated event that gets stuck ends in one state.
* `run_observe`: a part of the state that follows the events is a fold over the events.
* `run_observe_invariant`, `run_observe_invariant_of_allSteps`: an invariant may speak of a value
  folded over the events so far.
* `everyState_withHistory`, `allSteps_withHistory`: a history kept beside the state has no say in what
  does not speak of it.
* `run_simulates`, `run_simulates_of_allSteps`: a relation that each step carries over to a run of
  another machine is carried over by runs.
* `run_trace`: where each step of the whole is a run of a part, the run of the whole is one of the part.
-/

namespace Runs

variable {σ ε : Type*} (step : σ → ε → Option σ)

/-- The state after the events, if each of them can happen when its turn comes. -/
def run : σ → List ε → Option σ
  | s, [] => some s
  | s, e :: es => (step s e).bind fun s' => run s' es

/-- Every step of the run meets `ok`. -/
def AllSteps (ok : σ → ε → Prop) : σ → List ε → Prop
  | _, [] => True
  | s, e :: es => ∀ s', step s e = some s' → ok s e ∧ AllSteps ok s' es

/-- `P` holds in every state the run passes through, the first one included. -/
def EveryState (P : σ → Prop) : σ → List ε → Prop
  | s, [] => P s
  | s, e :: es => P s ∧ ∀ s', step s e = some s' → EveryState P s' es

/-- A value that is updated by each event, folded over the run. -/
def observe {η : Type*} (see : σ → ε → η → η) : σ → List ε → η → η
  | _, [], h => h
  | s, e :: es, h =>
    match step s e with
    | some s' => observe see s' es (see s e h)
    | none => h

variable {step}

@[simp] theorem run_nil (s : σ) : run step s [] = some s := rfl

theorem run_cons (s : σ) (e : ε) (es : List ε) :
    run step s (e :: es) = (step s e).bind fun s' => run step s' es := rfl

theorem run_cons_eq_some {s s' : σ} {e : ε} {es : List ε} :
    run step s (e :: es) = some s' ↔ ∃ t, step s e = some t ∧ run step t es = some s' := by
  rw [run_cons, Option.bind_eq_some_iff]

theorem run_append (s : σ) (es fs : List ε) :
    run step s (es ++ fs) = (run step s es).bind fun s' => run step s' fs := by
  induction es generalizing s with
  | nil => rfl
  | cons e es ih =>
    rw [List.cons_append, run_cons, run_cons, Option.bind_assoc]
    exact congrArg _ (funext ih)

theorem run_concat_eq_some {s s' : σ} {es : List ε} {e : ε} :
    run step s (es ++ [e]) = some s' ↔ ∃ t, run step s es = some t ∧ step t e = some s' := by
  simp only [run_append, Option.bind_eq_some_iff, run_cons_eq_some, run_nil, Option.some.injEq,
    exists_eq_right]

/-- The same event again and again, until it cannot happen any more, leads to one state. -/
theorem run_replicate_unique {Stop : σ → Prop} {e : ε} (hstuck : ∀ s, Stop s → step s e = none)
    {s t t' : σ} {k k' : ℕ} (h : run step s (List.replicate k e) = some t) (ht : Stop t)
    (h' : run step s (List.replicate k' e) = some t') (ht' : Stop t') : t = t' := by
  induction k generalizing s k' with
  | zero =>
    obtain rfl := Option.some.inj h
    cases k' with
    | zero => exact Option.some.inj h'
    | succ k' =>
      obtain ⟨u, hu, -⟩ := run_cons_eq_some.1 h'
      rw [hstuck s ht] at hu
      cases hu
  | succ k ih =>
    obtain ⟨u, hu, hrest⟩ := run_cons_eq_some.1 h
    cases k' with
    | zero =>
      obtain rfl := Option.some.inj h'
      rw [hstuck s ht'] at hu
      cases hu
    | succ k' =>
      obtain ⟨u', hu', hrest'⟩ := run_cons_eq_some.1 h'
      obtain rfl : u = u' := Option.some.inj (hu.symm.trans hu')
      exact ih hrest hrest'

/-! ## Invariants -/

theorem run_invariant_of_allSteps {I : σ → Prop} {ok : σ → ε → Prop}
    (hstep : ∀ s e s', I s → ok s e → step s e = some s' → I s') :
    ∀ {s s' : σ} {es : List ε}, I s → AllSteps step ok s es → run step s es = some s' → I s' := by
  intro s s' es hs hok hrun
  induction es generalizing s with
  | nil =>
    obtain rfl := Option.some.inj hrun
    exact hs
  | cons e es ih =>
    obtain ⟨t, ht, hrest⟩ := run_cons_eq_some.1 hrun
    obtain ⟨hok, hoks⟩ := hok t ht
    exact ih (hstep s e t hs hok ht) hoks hrest

theorem allSteps_true (s : σ) (es : List ε) : AllSteps step (fun _ _ => True) s es := by
  induction es generalizing s with
  | nil => trivial
  | cons e es ih => exact fun s' _ => ⟨trivial, ih s'⟩

theorem AllSteps.imp {ok ok' : σ → ε → Prop} (h : ∀ s e, ok s e → ok' s e) {s : σ} {es : List ε}
    (hs : AllSteps step ok s es) : AllSteps step ok' s es := by
  induction es generalizing s with
  | nil => trivial
  | cons e es ih => exact fun t ht => ⟨h s e (hs t ht).1, ih (hs t ht).2⟩

theorem AllSteps.and {ok ok' : σ → ε → Prop} {s : σ} {es : List ε} (h : AllSteps step ok s es)
    (h' : AllSteps step ok' s es) : AllSteps step (fun s e => ok s e ∧ ok' s e) s es := by
  induction es generalizing s with
  | nil => trivial
  | cons e es ih => exact fun t ht => ⟨⟨(h t ht).1, (h' t ht).1⟩, ih (h t ht).2 (h' t ht).2⟩

theorem allSteps_and {ok ok' : σ → ε → Prop} {s : σ} {es : List ε} :
    AllSteps step (fun s e => ok s e ∧ ok' s e) s es ↔
      AllSteps step ok s es ∧ AllSteps step ok' s es :=
  ⟨fun h => ⟨h.imp fun _ _ => And.left, h.imp fun _ _ => And.right⟩, fun h => h.1.and h.2⟩

theorem allSteps_of_forall {ok : σ → ε → Prop} {s : σ} {es : List ε}
    (h : ∀ e ∈ es, ∀ s, ok s e) : AllSteps step ok s es := by
  induction es generalizing s with
  | nil => trivial
  | cons e es ih =>
    exact fun t _ => ⟨h e List.mem_cons_self s, ih fun f hf => h f (List.mem_cons_of_mem e hf)⟩

theorem allSteps_cons {ok : σ → ε → Prop} {s t : σ} {e : ε} {es : List ε} (h : step s e = some t)
    (hok : ok s e) (hes : AllSteps step ok t es) : AllSteps step ok s (e :: es) := by
  intro t' ht'
  obtain rfl : t = t' := Option.some.inj (h.symm.trans ht')
  exact ⟨hok, hes⟩

theorem allSteps_append {ok : σ → ε → Prop} {s : σ} {es fs : List ε} :
    AllSteps step ok s (es ++ fs) ↔
      AllSteps step ok s es ∧ ∀ t, run step s es = some t → AllSteps step ok t fs := by
  induction es generalizing s with
  | nil => simp [AllSteps]
  | cons e es ih =>
    simp only [List.cons_append, AllSteps, ih, run_cons_eq_some]
    constructor
    · intro h
      refine ⟨fun t ht => ⟨(h t ht).1, (h t ht).2.1⟩, ?_⟩
      rintro u ⟨t, ht, hu⟩
      exact (h t ht).2.2 u hu
    · intro h t ht
      exact ⟨(h.1 t ht).1, (h.1 t ht).2, fun u hu => h.2 u ⟨t, ht, hu⟩⟩

theorem run_invariant {I : σ → Prop} (hstep : ∀ s e s', I s → step s e = some s' → I s')
    {s s' : σ} {es : List ε} (hs : I s) (hrun : run step s es = some s') : I s' :=
  run_invariant_of_allSteps (fun s e s' h _ => hstep s e s' h) hs (allSteps_true s es) hrun

/-- The potential method, with the potential `p`. -/
theorem run_potential {I : σ → Prop} {p : σ → ℕ} {charge grant : ε → ℕ}
    (hI : ∀ s e s', I s → step s e = some s' → I s')
    (hpay : ∀ s e s', I s → step s e = some s' → p s' + charge e ≤ p s + grant e) {s s' : σ}
    {es : List ε} (hs : I s) (hrun : run step s es = some s') :
    p s' + (es.map charge).sum ≤ p s + (es.map grant).sum := by
  induction es generalizing s with
  | nil =>
    obtain rfl := Option.some.inj hrun
    exact Nat.le_refl _
  | cons e es ih =>
    obtain ⟨t, ht, hrest⟩ := run_cons_eq_some.1 hrun
    have hfirst := hpay s e t hs ht
    have hlater := ih (hI s e t hs ht) hrest
    rw [List.map_cons, List.map_cons, List.sum_cons, List.sum_cons]
    omega

theorem EveryState.head {P : σ → Prop} {s : σ} {es : List ε} (h : EveryState step P s es) : P s := by
  cases es with
  | nil => exact h
  | cons e es => exact h.1

theorem EveryState.last {P : σ → Prop} {s s' : σ} {es : List ε} (h : EveryState step P s es)
    (hrun : run step s es = some s') : P s' := by
  induction es generalizing s with
  | nil =>
    obtain rfl := Option.some.inj hrun
    exact h
  | cons e es ih =>
    obtain ⟨t, ht, hrest⟩ := run_cons_eq_some.1 hrun
    exact ih (h.2 t ht) hrest

/-- A property that follows from an invariant holds in every state. -/
theorem everyState_of_allSteps {I P : σ → Prop} {ok : σ → ε → Prop}
    (hstep : ∀ s e s', I s → ok s e → step s e = some s' → I s') (hP : ∀ s, I s → P s) :
    ∀ {s : σ} {es : List ε}, I s → AllSteps step ok s es → EveryState step P s es := by
  intro s es hs hok
  induction es generalizing s with
  | nil => exact hP s hs
  | cons e es ih =>
    refine ⟨hP s hs, fun t ht => ?_⟩
    obtain ⟨hok, hoks⟩ := hok t ht
    exact ih (hstep s e t hs hok ht) hoks

/-- Where a step from a state with `P` leads to one with `P` exactly when it meets `ok`, a run
keeps `P` in every state exactly when all its steps meet `ok`.  The invariant has to be kept only
between states with `P`. -/
theorem everyState_iff_allSteps_of {P I : σ → Prop} {ok : σ → ε → Prop}
    (hI : ∀ s e s', I s → P s → P s' → step s e = some s' → I s')
    (hstep : ∀ s e s', I s → P s → step s e = some s' → (P s' ↔ ok s e)) :
    ∀ {s : σ} {es : List ε}, I s → P s → (EveryState step P s es ↔ AllSteps step ok s es) := by
  intro s es hs hP
  induction es generalizing s with
  | nil => exact ⟨fun _ => trivial, fun _ => hP⟩
  | cons e es ih =>
    simp only [EveryState, AllSteps, hP, true_and]
    refine forall_congr' fun t => forall_congr' fun ht => ?_
    have hkeep := hstep s e t hs hP ht
    constructor
    · intro h
      exact ⟨hkeep.1 h.head, (ih (hI s e t hs hP h.head ht) h.head).1 h⟩
    · intro h
      have hPt := hkeep.2 h.1
      exact (ih (hI s e t hs hP hPt ht) hPt).2 h.2

theorem everyState_iff_allSteps {P I : σ → Prop} {ok : σ → ε → Prop}
    (hI : ∀ s e s', I s → step s e = some s' → I s')
    (hstep : ∀ s e s', I s → P s → step s e = some s' → (P s' ↔ ok s e)) :
    ∀ {s : σ} {es : List ε}, I s → P s → (EveryState step P s es ↔ AllSteps step ok s es) :=
  everyState_iff_allSteps_of (fun s e s' h _ _ => hI s e s' h) hstep

/-- Conditions on a step that agree under an invariant which the steps with `assume` keep. -/
theorem allSteps_congr_of {I : σ → Prop} {assume ok ok' : σ → ε → Prop}
    (hI : ∀ s e s', I s → assume s e → step s e = some s' → I s')
    (hstep : ∀ s e s', I s → assume s e → step s e = some s' → (ok s e ↔ ok' s e)) :
    ∀ {s : σ} {es : List ε}, I s → AllSteps step assume s es →
      (AllSteps step ok s es ↔ AllSteps step ok' s es) := by
  intro s es hs hassume
  induction es generalizing s with
  | nil => exact Iff.rfl
  | cons e es ih =>
    refine forall₂_congr fun t ht => ?_
    obtain ⟨he, hes⟩ := hassume t ht
    exact and_congr (hstep s e t hs he ht) (ih (hI s e t hs he ht) hes)

theorem allSteps_congr {I : σ → Prop} {ok ok' : σ → ε → Prop}
    (hI : ∀ s e s', I s → step s e = some s' → I s')
    (hstep : ∀ s e s', I s → step s e = some s' → (ok s e ↔ ok' s e)) {s : σ} {es : List ε}
    (hs : I s) : AllSteps step ok s es ↔ AllSteps step ok' s es :=
  allSteps_congr_of (fun s e s' h _ => hI s e s' h) (fun s e s' h _ => hstep s e s' h) hs
    (allSteps_true s es)

/-- Where every step that misses `ok` leads to a `Bad` state and no step leaves the `Bad` states,
a run that does not end in one has met `ok` at every step. -/
theorem allSteps_of_not_bad {I Bad : σ → Prop} {ok : σ → ε → Prop}
    (hI : ∀ s e s', I s → step s e = some s' → I s')
    (hmiss : ∀ s e s', I s → step s e = some s' → ¬ ok s e → Bad s')
    (hkeep : ∀ s e s', I s → Bad s → step s e = some s' → Bad s') :
    ∀ {s s' : σ} {es : List ε}, I s → run step s es = some s' → ¬ Bad s' →
      AllSteps step ok s es := by
  intro s s' es hs hrun hgood
  induction es generalizing s with
  | nil => trivial
  | cons e es ih =>
    obtain ⟨t, ht, hrest⟩ := run_cons_eq_some.1 hrun
    have hIt := hI s e t hs ht
    intro t' ht'
    obtain rfl : t = t' := Option.some.inj (ht.symm.trans ht')
    refine ⟨?_, ih hIt hrest⟩
    by_contra hno
    have hbad : I s' ∧ Bad s' :=
      run_invariant (I := fun x => I x ∧ Bad x)
        (fun x f x' hx hstep => ⟨hI x f x' hx.1 hstep, hkeep x f x' hx.1 hx.2 hstep⟩)
        ⟨hIt, hmiss s e t hs ht hno⟩ hrest
    exact hgood hbad.2

/-- Where the steps that meet `ok` keep `Good`, and a step that misses `ok` leads to a `Bad` state that
no step leaves, the last state of a run tells whether all its steps have met `ok`. -/
theorem iff_allSteps {I Good Bad P : σ → Prop} {ok : σ → ε → Prop}
    (hI : ∀ s e s', I s → step s e = some s' → I s')
    (hgood : ∀ s e s', I s → Good s → ok s e → step s e = some s' → Good s')
    (hmiss : ∀ s e s', I s → step s e = some s' → ¬ ok s e → Bad s')
    (hkeep : ∀ s e s', I s → Bad s → step s e = some s' → Bad s')
    (hP : ∀ s, I s → Good s → P s) (hnot : ∀ s, I s → Bad s → ¬ P s) {s s' : σ} {es : List ε}
    (hs : I s) (hs' : Good s) (hrun : run step s es = some s') : P s' ↔ AllSteps step ok s es := by
  constructor
  · intro h
    exact allSteps_of_not_bad hI hmiss hkeep hs hrun
      fun hbad => hnot s' (run_invariant hI hs hrun) hbad h
  · intro hok
    have hlast : I s' ∧ Good s' :=
      run_invariant_of_allSteps (I := fun x => I x ∧ Good x)
        (fun x e x' hx hok hstep => ⟨hI x e x' hx.1 hstep, hgood x e x' hx.1 hx.2 hok hstep⟩)
        ⟨hs, hs'⟩ hok hrun
    exact hP s' hlast.1 hlast.2

/-- An invariant that carries along whether the steps so far have met `ok`. -/
theorem run_verdict {I : σ → Prop → Prop} {assume ok : σ → ε → Prop}
    (hstep : ∀ s v e s', I s v → assume s e → step s e = some s' → I s' (v ∧ ok s e)) :
    ∀ {s s' : σ} {v : Prop} {es : List ε}, I s v → AllSteps step assume s es →
      run step s es = some s' → I s' (v ∧ AllSteps step ok s es) := by
  intro s s' v es hs hassume hrun
  induction es generalizing s v with
  | nil =>
    obtain rfl := Option.some.inj hrun
    rwa [AllSteps, and_true]
  | cons e es ih =>
    obtain ⟨t, ht, hrest⟩ := run_cons_eq_some.1 hrun
    obtain ⟨he, hes⟩ := hassume t ht
    have hsame : (v ∧ AllSteps step ok s (e :: es)) = ((v ∧ ok s e) ∧ AllSteps step ok t es) := by
      rw [AllSteps, ht, and_assoc]
      simp
    rw [hsame]
    exact ih (hstep s v e t hs he ht) hes hrest

/-- A run that misses `ok` misses it at some step. -/
theorem exists_of_not_allSteps {ok : σ → ε → Prop} {s : σ} {es : List ε}
    (h : ¬ AllSteps step ok s es) :
    ∃ es₁ e es₂ t t', es = es₁ ++ e :: es₂ ∧ run step s es₁ = some t ∧ step t e = some t' ∧
      ¬ ok t e := by
  induction es generalizing s with
  | nil => exact absurd trivial h
  | cons e es ih =>
    simp only [AllSteps, not_forall] at h
    obtain ⟨t, ht, hmiss⟩ := h
    by_cases hok : ok s e
    · obtain ⟨es₁, f, es₂, u, u', rfl, hrun, hu, hno⟩ := ih fun hall => hmiss ⟨hok, hall⟩
      exact ⟨e :: es₁, f, es₂, u, u', rfl, run_cons_eq_some.2 ⟨t, ht, hrun⟩, hu, hno⟩
    · exact ⟨[], e, es, s, t, rfl, rfl, ht, hok⟩

/-! ## Histories -/

/-- A part `f` of the state that each step updates as `see` does is the fold of `see`. -/
theorem run_observe {η : Type*} {see : σ → ε → η → η} {f : σ → η}
    (hstep : ∀ s e s', step s e = some s' → f s' = see s e (f s)) {s s' : σ} {es : List ε}
    (hrun : run step s es = some s') : f s' = observe step see s es (f s) := by
  induction es generalizing s with
  | nil =>
    obtain rfl := Option.some.inj hrun
    rfl
  | cons e es ih =>
    obtain ⟨t, ht, hrest⟩ := run_cons_eq_some.1 hrun
    simp only [observe, ht]
    rw [ih hrest, hstep s e t ht]

/-- An invariant of the state together with a value that `see` folds over the events, kept by the steps
with `ok`. -/
theorem run_observe_invariant_of_allSteps {η : Type*} {see : σ → ε → η → η} {J : σ → η → Prop}
    {ok : σ → ε → Prop}
    (hstep : ∀ s e s' h, J s h → ok s e → step s e = some s' → J s' (see s e h)) {s s' : σ} {h : η}
    {es : List ε} (hs : J s h) (hok : AllSteps step ok s es) (hrun : run step s es = some s') :
    J s' (observe step see s es h) := by
  induction es generalizing s h with
  | nil =>
    obtain rfl := Option.some.inj hrun
    exact hs
  | cons e es ih =>
    obtain ⟨t, ht, hrest⟩ := run_cons_eq_some.1 hrun
    obtain ⟨hfirst, hlater⟩ := hok t ht
    simp only [observe, ht]
    exact ih (hstep s e t h hs hfirst ht) hlater hrest

theorem run_observe_invariant {η : Type*} {see : σ → ε → η → η} {J : σ → η → Prop}
    (hstep : ∀ s e s' h, J s h → step s e = some s' → J s' (see s e h)) {s s' : σ} {h : η}
    {es : List ε} (hs : J s h) (hrun : run step s es = some s') :
    J s' (observe step see s es h) :=
  run_observe_invariant_of_allSteps (fun s e s' h hJ _ => hstep s e s' h hJ) hs (allSteps_true s es)
    hrun

/-! ## A history beside the state -/

section withHistory

variable {η : Type*} {see : ε → σ → η → η}

/-- The machine with a value beside its state, updated from each event and the state it leads to. -/
def withHistory (step : σ → ε → Option σ) (see : ε → σ → η → η) (p : σ × η) (e : ε) :
    Option (σ × η) :=
  (step p.1 e).map fun s' => (s', see e s' p.2)

theorem withHistory_eq_some {p p' : σ × η} {e : ε} :
    withHistory step see p e = some p' ↔ step p.1 e = some p'.1 ∧ p'.2 = see e p'.1 p.2 := by
  rw [withHistory, Option.map_eq_some_iff]
  constructor
  · rintro ⟨s', hs', rfl⟩
    exact ⟨hs', rfl⟩
  · rintro ⟨hs', hsee⟩
    exact ⟨p'.1, hs', by rw [← hsee]⟩

/-- The history has no say in a property of the states. -/
theorem everyState_withHistory {P : σ → Prop} {s : σ} {h : η} {es : List ε} :
    EveryState (withHistory step see) (fun p => P p.1) (s, h) es ↔ EveryState step P s es := by
  induction es generalizing s h with
  | nil => exact Iff.rfl
  | cons e es ih =>
    refine and_congr_right fun _ => ?_
    constructor
    · intro hall t ht
      exact ih.1 (hall (t, see e t h) (withHistory_eq_some.2 ⟨ht, rfl⟩))
    · rintro hall ⟨t, h'⟩ ht
      exact ih.2 (hall t (withHistory_eq_some.1 ht).1)

theorem allSteps_withHistory {ok : σ → ε → Prop} {s : σ} {h : η} {es : List ε} :
    AllSteps (withHistory step see) (fun p e => ok p.1 e) (s, h) es ↔ AllSteps step ok s es := by
  induction es generalizing s h with
  | nil => exact Iff.rfl
  | cons e es ih =>
    constructor
    · intro hall t ht
      obtain ⟨hok, hoks⟩ := hall (t, see e t h) (withHistory_eq_some.2 ⟨ht, rfl⟩)
      exact ⟨hok, ih.1 hoks⟩
    · rintro hall ⟨t, h'⟩ ht
      obtain ⟨hok, hoks⟩ := hall t (withHistory_eq_some.1 ht).1
      exact ⟨hok, ih.2 hoks⟩

end withHistory

/-! ## Parts of the state -/

section part

variable {τ φ : Type*} {step' : τ → φ → Option τ} {part : σ → τ} {see : σ → ε → List φ}

/-- The events of a part, where `see` says what an event of the whole is for it. -/
def trace (step : σ → ε → Option σ) (see : σ → ε → List φ) (s : σ) (es : List ε) : List φ :=
  observe step (fun s e h => h ++ see s e) s es []

/-- A relation that each step with `ok` carries over to a run of the other machine is carried over by
runs of such steps. -/
theorem run_simulates_of_allSteps {R : σ → τ → Prop} {ok : σ → ε → Prop}
    (hstep : ∀ s t e s', R s t → ok s e → step s e = some s' →
      ∃ t', run step' t (see s e) = some t' ∧ R s' t')
    {s s' : σ} {t : τ} {es : List ε} (h : R s t) (hok : AllSteps step ok s es)
    (hrun : run step s es = some s') :
    ∃ t', run step' t (trace step see s es) = some t' ∧ R s' t' := by
  refine run_observe_invariant_of_allSteps
    (J := fun x h => ∃ t', run step' t h = some t' ∧ R x t') (fun x e x' h hx hxe hx' => ?_)
    ⟨t, rfl, h⟩ hok hrun
  obtain ⟨u, hu, hR⟩ := hx
  obtain ⟨u', hu', hR'⟩ := hstep x u e x' hR hxe hx'
  refine ⟨u', ?_, hR'⟩
  rw [run_append, hu]
  exact hu'

theorem run_simulates {R : σ → τ → Prop}
    (hstep : ∀ s t e s', R s t → step s e = some s' →
      ∃ t', run step' t (see s e) = some t' ∧ R s' t')
    {s s' : σ} {t : τ} {es : List ε} (h : R s t) (hrun : run step s es = some s') :
    ∃ t', run step' t (trace step see s es) = some t' ∧ R s' t' :=
  run_simulates_of_allSteps (fun s t e s' hR _ => hstep s t e s' hR) h (allSteps_true s es) hrun

theorem run_trace {I : σ → Prop} (hI : ∀ s e s', I s → step s e = some s' → I s')
    (hstep : ∀ s e s', I s → step s e = some s' →
      run step' (part s) (see s e) = some (part s')) {s s' : σ} {es : List ε} (hs : I s)
    (hrun : run step s es = some s') :
    run step' (part s) (trace step see s es) = some (part s') := by
  obtain ⟨t, ht, -, rfl⟩ := run_simulates (R := fun x t => I x ∧ t = part x)
    (fun x t e x' hx hx' => ⟨part x', hx.2 ▸ hstep x e x' hx.1 hx', hI x e x' hx.1 hx', rfl⟩)
    ⟨hs, rfl⟩ hrun
  exact ht

end part

end Runs
