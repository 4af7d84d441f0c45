import DialogueApp.Lib.Runs
import Mathlib.Logic.Function.Basic

/-!
# Parts around a shared state

Any number of parts, indexed by `ι`, work on one shared state.  An event names the part that takes
it; that part's step may change the shared state and the part itself, and leaves the other parts
alone.  `advance_inv` is the rely/guarantee rule: a shared invariant and one invariant for each
part are kept by every event when the step of a part keeps the shared invariant and its own, and
does to the shared state only what the invariants of the other parts bear.  `run_part_iff` lifts
`Runs.iff_allSteps` from the steps of one part to the runs of all.
-/

universe u v w z

/-- A shared state and the parts around it. -/
structure Shared (ι : Type u) (σ : Type v) (π : Type w) where
  shared : σ
  parts : ι → π

namespace Shared

variable {ι : Type u} {σ : Type v} {π : Type w} {ε : Type z} [DecidableEq ι]
  (step : ι → σ → π → ε → Option (σ × π))

/-- Part `e.1` takes the event `e.2`. -/
def advance (x : Shared ι σ π) (e : ι × ε) : Option (Shared ι σ π) :=
  (step e.1 x.shared (x.parts e.1) e.2).map fun y =>
    { shared := y.1, parts := Function.update x.parts e.1 y.2 }

variable {step}

theorem advance_eq_some {x x' : Shared ι σ π} {i : ι} {e : ε}
    (h : advance step x (i, e) = some x') :
    step i x.shared (x.parts i) e = some (x'.shared, x'.parts i) ∧
      ∀ j, j ≠ i → x'.parts j = x.parts j := by
  obtain ⟨y, hy, rfl⟩ := Option.map_eq_some_iff.1 h
  refine ⟨?_, fun j hj => Function.update_of_ne hj _ _⟩
  rw [hy]
  simp

/-- What the steps of a part keep of it is kept by every event. -/
theorem advance_part {i : ι} {L : π → Prop} {ok : π → ε → Prop}
    (hstep : ∀ s p e t q, L p → ok p e → step i s p e = some (t, q) → L q)
    {x x' : Shared ι σ π} {e : ι × ε} (hL : L (x.parts i)) (hok : e.1 = i → ok (x.parts i) e.2)
    (h : advance step x e = some x') : L (x'.parts i) := by
  obtain ⟨j, e⟩ := e
  obtain ⟨hs, hother⟩ := advance_eq_some h
  by_cases hj : i = j
  · subst hj
    exact hstep x.shared (x.parts i) e _ _ hL (hok rfl) hs
  · rw [hother i hj]
    exact hL

/-- A run of one part, with the shared state, is a run of the whole. -/
theorem run_of_part {i : ι} {es : List ε} {x : Shared ι σ π} {t : σ} {q : π}
    (h : Runs.run (fun y e => step i y.1 y.2 e) (x.shared, x.parts i) es = some (t, q)) :
    Runs.run (advance step) x (es.map (i, ·)) = some ⟨t, Function.update x.parts i q⟩ := by
  induction es generalizing x with
  | nil =>
    obtain ⟨rfl, rfl⟩ := Prod.mk.inj (Option.some.inj h)
    rw [Function.update_eq_self]
    rfl
  | cons e es ih =>
    obtain ⟨⟨u, p⟩, hstep, hrest⟩ := Runs.run_cons_eq_some.1 h
    have hadvance : advance step x (i, e) = some ⟨u, Function.update x.parts i p⟩ := by
      rw [advance, show step i x.shared (x.parts i) e = some (u, p) from hstep]
      rfl
    have hpart : Runs.run (fun y e => step i y.1 y.2 e) (u, Function.update x.parts i p i) es =
        some (t, q) := by
      rw [Function.update_self]
      exact hrest
    refine Runs.run_cons_eq_some.2 ⟨_, hadvance, ?_⟩
    rw [ih hpart, Function.update_idem]

/-- The rely/guarantee rule. -/
theorem advance_inv {I : σ → Prop} {L : ι → σ → π → Prop} {R : ι → σ → σ → Prop}
    {ok : ι → σ → π → ε → Prop}
    (hstable : ∀ i s t p, L i s p → R i s t → L i t p)
    (hstep : ∀ i s p e t q, I s → L i s p → ok i s p e → step i s p e = some (t, q) →
      I t ∧ L i t q ∧ ∀ j, j ≠ i → R j s t)
    {x x' : Shared ι σ π} {e : ι × ε} (hI : I x.shared) (hL : ∀ i, L i x.shared (x.parts i))
    (hok : ok e.1 x.shared (x.parts e.1) e.2) (h : advance step x e = some x') :
    I x'.shared ∧ ∀ i, L i x'.shared (x'.parts i) := by
  obtain ⟨i, e⟩ := e
  obtain ⟨hs, hother⟩ := advance_eq_some h
  obtain ⟨h1, h2, h3⟩ := hstep i x.shared (x.parts i) e _ _ hI (hL i) hok hs
  refine ⟨h1, fun j => ?_⟩
  by_cases hj : j = i
  · subst hj
    exact h2
  · rw [hother j hj]
    exact hstable j _ _ _ (hL j) (h3 j hj)

/-- The last state of a part tells whether all its events in the run have met `ok`. -/
theorem run_part_iff {i : ι} {I Good Bad P : π → Prop} {ok : π → ε → Prop}
    (hI : ∀ s p e t q, I p → step i s p e = some (t, q) → I q)
    (hgood : ∀ s p e t q, I p → Good p → ok p e → step i s p e = some (t, q) → Good q)
    (hmiss : ∀ s p e t q, I p → step i s p e = some (t, q) → ¬ ok p e → Bad q)
    (hkeep : ∀ s p e t q, I p → Bad p → step i s p e = some (t, q) → Bad q)
    (hP : ∀ p, I p → Good p → P p) (hnot : ∀ p, I p → Bad p → ¬ P p)
    {x x' : Shared ι σ π} {es : List (ι × ε)} (hx : I (x.parts i)) (hx' : Good (x.parts i))
    (hrun : Runs.run (advance step) x es = some x') :
    P (x'.parts i) ↔
      Runs.AllSteps (advance step) (fun x e => e.1 = i → ok (x.parts i) e.2) x es := by
  refine @Runs.iff_allSteps _ _ _ (fun x => I (x.parts i)) (fun x => Good (x.parts i))
    (fun x => Bad (x.parts i)) (fun x => P (x.parts i)) _ ?_ ?_ ?_ ?_
    (fun x => hP (x.parts i)) (fun x => hnot (x.parts i)) x x' es hx hx' hrun
  · intro x e x' h hstep
    exact advance_part (fun s p e t q hp (_ : True) => hI s p e t q hp) h (fun _ => trivial) hstep
  · intro x e x' h hg hok hstep
    have hboth : I (x'.parts i) ∧ Good (x'.parts i) :=
      advance_part (L := fun p => I p ∧ Good p)
        (fun s p e t q hp hok hstep =>
          ⟨hI s p e t q hp.1 hstep, hgood s p e t q hp.1 hp.2 hok hstep⟩) ⟨h, hg⟩ hok hstep
    exact hboth.2
  · rintro x ⟨j, e⟩ x' h hstep hno
    rw [Classical.not_imp] at hno
    obtain ⟨rfl, hno⟩ := hno
    exact hmiss x.shared (x.parts j) e _ _ h (advance_eq_some hstep).1 hno
  · intro x e x' h hb hstep
    have hboth : I (x'.parts i) ∧ Bad (x'.parts i) :=
      advance_part (L := fun p => I p ∧ Bad p)
        (fun s p e t q hp (_ : True) hstep =>
          ⟨hI s p e t q hp.1 hstep, hkeep s p e t q hp.1 hp.2 hstep⟩) ⟨h, hb⟩ (fun _ => trivial)
        hstep
    exact hboth.2

end Shared
