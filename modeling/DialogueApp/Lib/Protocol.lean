import DialogueApp.Lib.Async
import DialogueApp.Lib.Runs

/-!
# Protocols of callback chains

A protocol is a list of kinds of requests.  A tree follows it when it issues one request of each kind,
in this order, and calls its completion after the last one; it may return early anywhere.
`follows_*` are the rules for the ways a chain is built.
-/

universe u v

namespace Async

variable {Req : Type u} {Resp : Req → Type u} {α β : Type u} {κ : Type v} {kind : Req → κ}
  {ps qs : List κ}

/-- The tree issues requests of these kinds in this order. -/
def Follows (kind : Req → κ) : Async Req Resp α → List κ → Prop
  | .done _, ps => ps = []
  | .stop, _ => True
  | .call r k, ps => ∃ qs, ps = kind r :: qs ∧ ∀ a, Follows kind (k a) qs

theorem Follows.bind {x : Async Req Resp α} {f : α → Async Req Resp β} (hx : x.Follows kind ps)
    (hf : ∀ a, (f a).Follows kind qs) : (x >>= f).Follows kind (ps ++ qs) := by
  induction x generalizing ps with
  | done a =>
    obtain rfl : ps = [] := hx
    exact hf a
  | stop => trivial
  | call r k ih =>
    obtain ⟨ps, rfl, hk⟩ := hx
    exact ⟨ps ++ qs, rfl, fun a => ih a (hk a)⟩

/-- What is done with the result does not matter. -/
theorem Follows.map {x : Async Req Resp α} {f : α → β} (hx : x.Follows kind ps) :
    (x >>= fun a => (.done (f a) : Async Req Resp β)).Follows kind ps := by
  have h : (x >>= fun a => (.done (f a) : Async Req Resp β)).Follows kind (ps ++ []) :=
    hx.bind fun _ => rfl
  rwa [List.append_nil] at h

end Async

namespace Chain

variable {μ : Type u} {Req : Type u} {Resp : Req → Type u} {α β : Type u} {κ : Type v}
  {kind : Req → κ} {ps qs : List κ} {m : μ} {x : Chain μ Req Resp α} {f : α → Chain μ Req Resp β}

theorem follows_bind (hx : (x.run m).Follows kind ps)
    (hf : ∀ a m', ((f a).run m').Follows kind qs) :
    ((x >>= f).run m).Follows kind (ps ++ qs) := by
  rw [StateT.run_bind]
  exact hx.bind fun a => hf a.1 a.2

/-- What is read in a callback is no request. -/
theorem follows_read {g : μ → α} (hf : ∀ a m', ((f a).run m').Follows kind qs) :
    (((do return g (← get)) >>= f : Chain μ Req Resp β).run m).Follows kind qs :=
  hf (g m) m

theorem follows_request {r : Req} {f : Resp r → Chain μ Req Resp β}
    (hf : ∀ a m', ((f a).run m').Follows kind qs) :
    ((request r >>= f).run m).Follows kind (kind r :: qs) :=
  ⟨qs, rfl, fun a => hf a.1 a.2⟩

theorem follows_map {g : α → β} (hx : (x.run m).Follows kind ps) :
    ((g <$> x).run m).Follows kind ps :=
  hx.map

theorem follows_return {g : α → β} (hx : (x.run m).Follows kind ps) :
    ((do return g (← x) : Chain μ Req Resp β).run m).Follows kind ps := by
  rw [StateT.run_bind]
  exact hx.map

end Chain
