import Mathlib.Logic.Basic

/-!
# Chains of callbacks

A function that nests callbacks is a tree: `call r k` has issued the request `r` and continues with
`k` in its callback, `done a` has called its completion with `a`, and `stop` has returned without
calling it.  Each callback runs once, so a path through the tree is a possible history of the call.

`Chain` adds what a callback can read at the moment it runs (a clock, a fresh name): a `μ` that
every answer brings along.

`Only`, `OnlyFirst`, `After`, `StopsOn` and `Returns` describe the shape of a tree, whatever answers
it gets; each has rules for the ways a chain is built.

A `Contract` says how such a tree runs beside others over shared states `σ`: what the others may do
between two of its callbacks (`rely`), which invariant the states keep, in which states a request may
be issued (`demands`), and which answers it can get.  `Holds` is the weakest precondition in that
setting, and the `holds_*` theorems are its rules, one for each way of building a chain.
-/

universe u v

/-- A tree of callbacks that issues requests `Req`, each answered by a `Resp`. -/
inductive Async (Req : Type u) (Resp : Req → Type u) (α : Type u) : Type u
  | done (a : α)
  | stop
  | call (r : Req) (k : Resp r → Async Req Resp α)

namespace Async

variable {Req : Type u} {Resp : Req → Type u} {α β : Type u}

/-- Continue with `f` where the completion is called. -/
def bind : Async Req Resp α → (α → Async Req Resp β) → Async Req Resp β
  | .done a, f => f a
  | .stop, _ => .stop
  | .call r k, f => .call r fun a => (k a).bind f

instance : Monad (Async Req Resp) where
  pure := .done
  bind := bind

@[simp] theorem stop_bind (f : α → Async Req Resp β) :
    ((Async.stop : Async Req Resp α) >>= f) = .stop := rfl

/-- Whether a request is waiting for its answer. -/
def pending : Async Req Resp α → Bool
  | .call _ _ => true
  | _ => false

/-- Whether the completion has been called. -/
def finished : Async Req Resp α → Bool
  | .done _ => true
  | _ => false

/-- The request that waits for its answer. -/
def request? : Async Req Resp α → Option Req
  | .call r _ => some r
  | _ => none

theorem not_finished {x : Async Req Resp α} (h : x.pending = true) : x.finished = false := by
  cases x with
  | call r k => rfl
  | _ => cases h

/-- A tree whose completion has been called ends with a value. -/
theorem exists_done {x : Async Req Resp α} (h : x.finished = true) : ∃ a, x = .done a := by
  cases x with
  | done a => exact ⟨a, rfl⟩
  | _ => cases h

theorem pending_bind {x : Async Req Resp α} (h : x.pending = true) (f : α → Async Req Resp β) :
    (x >>= f).pending = true := by
  cases x with
  | call r k => rfl
  | _ => cases h

/-! ## The shape of a tree -/

/-- Every request of the tree satisfies `p`. -/
def Only (p : Req → Prop) : Async Req Resp α → Prop
  | .done _ => True
  | .stop => True
  | .call r k => p r ∧ ∀ a, Only p (k a)

/-- Only the first request of the tree may satisfy `p`. -/
def OnlyFirst (p : Req → Prop) : Async Req Resp α → Prop
  | .done _ => True
  | .stop => True
  | .call _ k => ∀ a, Only (fun r => ¬ p r) (k a)

/-- After an answer to a request with `p`, all further requests satisfy `q`. -/
def After (p q : Req → Prop) : Async Req Resp α → Prop
  | .done _ => True
  | .stop => True
  | .call r k => (p r → ∀ a, Only q (k a)) ∧ ∀ a, After p q (k a)

/-- The tree returns early on a bad answer, and on nothing else. -/
def StopsOn (bad : (r : Req) → Resp r → Prop) : Async Req Resp α → Prop
  | .done _ => True
  | .stop => False
  | .call r k => ∀ a, (bad r a → k a = .stop) ∧ (¬ bad r a → StopsOn bad (k a))

/-- Whatever the completion is called with satisfies `P`. -/
def Returns (P : α → Prop) : Async Req Resp α → Prop
  | .done a => P a
  | .stop => True
  | .call _ k => ∀ a, Returns P (k a)

theorem Only.bind {p : Req → Prop} {x : Async Req Resp α} {f : α → Async Req Resp β}
    (hx : x.Only p) (hf : ∀ a, (f a).Only p) : (x >>= f).Only p := by
  induction x with
  | done a => exact hf a
  | stop => trivial
  | call r k ih => exact ⟨hx.1, fun a => ih a (hx.2 a)⟩

theorem Only.mono {p q : Req → Prop} {x : Async Req Resp α} (hx : x.Only p)
    (hpq : ∀ r, p r → q r) : x.Only q := by
  induction x with
  | done a => trivial
  | stop => trivial
  | call r k ih => exact ⟨hpq r hx.1, fun a => ih a (hx.2 a)⟩

theorem Only.onlyFirst {p : Req → Prop} {x : Async Req Resp α} (hx : x.Only fun r => ¬ p r) :
    x.OnlyFirst p := by
  cases x with
  | done a => trivial
  | stop => trivial
  | call r k => exact hx.2

theorem After.of_not {p q : Req → Prop} {x : Async Req Resp α} (hx : x.Only fun r => ¬ p r) :
    x.After p q := by
  induction x with
  | done a => trivial
  | stop => trivial
  | call r k ih => exact ⟨fun hp => absurd hp hx.1, fun a => ih a (hx.2 a)⟩

/-- A part without `p`-requests may stand before the rest. -/
theorem After.bind {p q : Req → Prop} {x : Async Req Resp α} {f : α → Async Req Resp β}
    (hx : x.Only fun r => ¬ p r) (hf : ∀ a, (f a).After p q) : (x >>= f).After p q := by
  induction x with
  | done a => exact hf a
  | stop => trivial
  | call r k ih => exact ⟨fun hp => absurd hp hx.1, fun a => ih a (hx.2 a)⟩

/-- What is done with the result does not matter. -/
theorem After.map {p q : Req → Prop} {x : Async Req Resp α} {f : α → β} (hx : x.After p q) :
    (x >>= fun a => (.done (f a) : Async Req Resp β)).After p q := by
  induction x with
  | done a => trivial
  | stop => trivial
  | call r k ih =>
    refine ⟨fun hp a => ?_, fun a => ih a (hx.2 a)⟩
    exact (hx.1 hp a).bind fun _ => trivial

theorem StopsOn.bind {bad : (r : Req) → Resp r → Prop} {x : Async Req Resp α}
    {f : α → Async Req Resp β} (hx : x.StopsOn bad) (hf : ∀ a, (f a).StopsOn bad) :
    (x >>= f).StopsOn bad := by
  induction x with
  | done a => exact hf a
  | stop => exact hx.elim
  | call r k ih =>
    intro a
    refine ⟨fun hb => ?_, fun hb => ih a ((hx a).2 hb)⟩
    show (k a >>= f) = .stop
    rw [(hx a).1 hb, stop_bind]

theorem Returns.map {P : β → Prop} {f : α → β} (h : ∀ a, P (f a)) (x : Async Req Resp α) :
    (x >>= fun a => (.done (f a) : Async Req Resp β)).Returns P := by
  induction x with
  | done a => exact h a
  | stop => trivial
  | call r k ih => exact fun a => ih a

end Async

/-- A callback chain that can read, in each callback, what the moment `μ` offers. -/
abbrev Chain (μ : Type u) (Req : Type u) (Resp : Req → Type u) :=
  StateT μ (Async Req fun r => Resp r × μ)

namespace Chain

variable {μ : Type u} {Req : Type u} {Resp : Req → Type u} {α β : Type u}

/-- Issue a request and continue in its callback, at the moment that comes with the answer. -/
def request (r : Req) : Chain μ Req Resp (Resp r) := fun _ => .call r .done

/-- Return without calling the completion. -/
def stop : Chain μ Req Resp α := fun _ => .stop

variable {p q : Req → Prop} {m : μ} {x : Chain μ Req Resp α} {f : α → Chain μ Req Resp β}

theorem only_bind (hx : (x.run m).Only p) (hf : ∀ a m', ((f a).run m').Only p) :
    ((x >>= f).run m).Only p := by
  rw [StateT.run_bind]
  exact Async.Only.bind hx fun a => hf a.1 a.2

theorem only_request {r : Req} (h : p r) :
    ((request r : Chain μ Req Resp (Resp r)).run m).Only p := ⟨h, fun _ => trivial⟩

theorem only_map {g : α → β} (hx : (x.run m).Only p) : ((g <$> x).run m).Only p :=
  Async.Only.bind hx fun _ => trivial

theorem after_bind (hx : (x.run m).Only fun r => ¬ p r) (hf : ∀ a m', ((f a).run m').After p q) :
    ((x >>= f).run m).After p q := by
  rw [StateT.run_bind]
  exact Async.After.bind hx fun a => hf a.1 a.2

theorem after_map {g : α → β} (hx : (x.run m).After p q) : ((g <$> x).run m).After p q :=
  Async.After.map hx

theorem stopsOn_map {g : α → β} {bad : (r : Req) → Resp r × μ → Prop}
    (hx : (x.run m).StopsOn bad) : ((g <$> x).run m).StopsOn bad :=
  Async.StopsOn.bind hx fun _ => trivial

/-- A request whose callback returns early on a bad answer. -/
theorem stopsOn_request {r : Req} {f : Resp r → Chain μ Req Resp β}
    {bad : (r : Req) → Resp r × μ → Prop} (hstop : ∀ a m', bad r (a, m') → (f a).run m' = .stop)
    (hgo : ∀ a m', ¬ bad r (a, m') → ((f a).run m').StopsOn bad) :
    ((request r >>= f).run m).StopsOn bad := by
  rw [StateT.run_bind]
  exact fun a => ⟨hstop a.1 a.2, hgo a.1 a.2⟩

theorem pending_map {g : α → β} (h : (x.run m).pending = true) :
    ((g <$> x).run m).pending = true :=
  Async.pending_bind h _

theorem map_stop {g : α → β} (h : x.run m = .stop) : (g <$> x).run m = .stop := by
  show Async.bind (x.run m) _ = _
  rw [h]
  rfl

theorem returns_map {g : α → β} {P : β × μ → Prop} (h : ∀ a m', P (g a, m')) :
    ((g <$> x).run m).Returns P :=
  Async.Returns.map (f := fun p => (g p.1, p.2)) (fun p => h p.1 p.2) (x.run m)

theorem stopsOn_bind {bad : (r : Req) → Resp r × μ → Prop} (hx : (x.run m).StopsOn bad)
    (hf : ∀ a m', ((f a).run m').StopsOn bad) : ((x >>= f).run m).StopsOn bad := by
  rw [StateT.run_bind]
  exact Async.StopsOn.bind hx fun a => hf a.1 a.2

end Chain

/-! ## Rely and guarantee -/

/-- How a callback chain runs over shared states. -/
structure Contract (σ : Type v) (Req : Type u) (Resp : Req → Type u) where
  /-- What holds of the state at every callback. -/
  inv : σ → Prop
  /-- What may have happened between two callbacks. -/
  rely : σ → σ → Prop
  /-- In which states a request may be answered. -/
  demands : σ → Req → Prop
  /-- The answers a request can get, with the state after it. -/
  answers : σ → (r : Req) → Resp r → σ → Prop
  rely_refl : ∀ s, rely s s
  rely_trans : ∀ s t w, rely s t → rely t w → rely s w

namespace Async

variable {σ : Type v} {Req : Type u} {Resp : Req → Type u} {α β : Type u}
  (C : Contract σ Req Resp)

/-- Under the contract, every request of the tree meets its demands, the completion is called in a
state with `Q`, and an early return happens in a state with `S`. -/
def Holds (Q : σ → α → Prop) (S : σ → Prop) : Async Req Resp α → σ → Prop
  | .done a, s => Q s a
  | .stop, s => S s
  | .call r k, s => ∀ t, C.rely s t → C.inv t →
      C.demands t r ∧ ∀ a t', C.answers t r a t' → Holds Q S (k a) t'

variable {C} {Q : σ → α → Prop} {S : σ → Prop}

/-- What holds of the tree still holds after the others have run. -/
theorem Holds.rely {x : Async Req Resp α} {s t : σ} (h : x.Holds C Q S s) (hr : C.rely s t)
    (hQ : ∀ s t a, C.rely s t → Q s a → Q t a) (hS : ∀ s t, C.rely s t → S s → S t) :
    x.Holds C Q S t := by
  cases x with
  | done a => exact hQ s t a hr h
  | stop => exact hS s t hr h
  | call r k => exact fun w hw => h w (C.rely_trans s t w hr hw)

/-- What the answer to the pending request leads to. -/
theorem Holds.answer {r : Req} {k : Resp r → Async Req Resp α} {s : σ}
    (h : (Async.call r k).Holds C Q S s) (hi : C.inv s) :
    C.demands s r ∧ ∀ a t, C.answers s r a t → (k a).Holds C Q S t :=
  h s (C.rely_refl s) hi

theorem holds_bind {R : σ → β → Prop} {x : Async Req Resp α} {f : α → Async Req Resp β} {s : σ}
    (h : x.Holds C (fun s a => (f a).Holds C R S s) S s) : (x >>= f).Holds C R S s := by
  induction x generalizing s with
  | done a => exact h
  | stop => exact h
  | call r k ih =>
    intro t ht hi
    obtain ⟨hd, hnext⟩ := h t ht hi
    exact ⟨hd, fun a t' ha => ih a (hnext a t' ha)⟩

/-- A tree that issues requests of one kind only keeps what these requests keep. -/
theorem holds_of_only {p : Req → Prop} {J : σ → Prop}
    (hrely : ∀ s t, J s → C.rely s t → J t)
    (hstep : ∀ s r, J s → C.inv s → p r →
      C.demands s r ∧ ∀ a t, C.answers s r a t → J t)
    {x : Async Req Resp α} (hx : x.Only p) {s : σ} (hs : J s) : x.Holds C (fun t _ => J t) J s := by
  induction x generalizing s with
  | done a => exact hs
  | stop => exact hs
  | call r k ih =>
    intro t ht hi
    obtain ⟨hd, hnext⟩ := hstep t r (hrely s t hs ht) hi hx.1
    exact ⟨hd, fun a t' ha => ih a (hx.2 a) (hnext a t' ha)⟩

theorem Holds.mono {Q' : σ → α → Prop} {S' : σ → Prop} {x : Async Req Resp α} {s : σ}
    (h : x.Holds C Q S s) (hQ : ∀ t a, Q t a → Q' t a) (hS : ∀ t, S t → S' t) :
    x.Holds C Q' S' s := by
  induction x generalizing s with
  | done a => exact hQ s a h
  | stop => exact hS s h
  | call r k ih =>
    intro t ht hi
    obtain ⟨hd, hnext⟩ := h t ht hi
    exact ⟨hd, fun a t' ha => ih a (hnext a t' ha)⟩

end Async

namespace Chain

variable {σ : Type v} {μ : Type u} {Req : Type u} {Resp : Req → Type u} {α β : Type u}
  {C : Contract σ Req fun r => Resp r × μ} {S : σ → Prop} {s : σ} {m : μ}

theorem holds_pure {Q : σ → α × μ → Prop} {a : α} (h : Q s (a, m)) :
    ((pure a : Chain μ Req Resp α).run m).Holds C Q S s := h

theorem holds_stop {Q : σ → α × μ → Prop} (h : S s) :
    ((stop : Chain μ Req Resp α).run m).Holds C Q S s := h

theorem holds_bind {R : σ → β × μ → Prop} {x : Chain μ Req Resp α} {f : α → Chain μ Req Resp β}
    (h : (x.run m).Holds C (fun s p => ((f p.1).run p.2).Holds C R S s) S s) :
    ((x >>= f).run m).Holds C R S s := by
  rw [StateT.run_bind]
  exact Async.holds_bind h

theorem holds_map {R : σ → β × μ → Prop} {x : Chain μ Req Resp α} {f : α → β}
    (h : (x.run m).Holds C (fun s p => R s (f p.1, p.2)) S s) :
    ((f <$> x).run m).Holds C R S s :=
  Async.holds_bind h

theorem holds_request {r : Req} {Q : σ → Resp r × μ → Prop}
    (h : ∀ t, C.rely s t → C.inv t →
      C.demands t r ∧ ∀ a t', C.answers t r a t' → Q t' a) :
    ((request r : Chain μ Req Resp (Resp r)).run m).Holds C Q S s := h

/-- What a callback reads of its moment. -/
theorem holds_read {R : σ → α × μ → Prop} {f : μ → α} (h : R s (f m, m)) :
    ((do return f (← get) : Chain μ Req Resp α).run m).Holds C R S s := h

end Chain
