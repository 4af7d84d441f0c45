import DialogueApp.Controllers.Presentation
import DialogueApp.Lib.Runs

/-!
# How many conversations one presentation stores

Every registration stores at most one conversation, and stores it when it is done.  So a presentation
stores one at most when no tap is made before the earlier registrations have failed; any other tap
can lead to a second one.
-/

namespace DialogueApp.Presentation

open Runs CreateChatController

variable {sameName : String → String → Bool}

/-- How far a registration has come. -/
inductive Stage : Running Unit → Prop
  | animating (c : CreateChatController) : Stage (.call .animate c.writing)
  | writing (c : CreateChatController) (p : CreateChatController × Moment) : Stage (c.writing p)
  | failed : Stage .stop
  | stored (m : Moment) : Stage (.done ((), m))

/-- The registration has stored its conversation. -/
def stored : Running Unit → Bool
  | .done _ => true
  | _ => false

/-- Each registration is in some stage, and the documents written are those of the stored ones. -/
structure Written (s : Presentation) : Prop where
  stage : ∀ p ∈ s.registrations, Stage p
  count : s.written.length = s.registrations.countP stored

/-! ## What one answer does -/

/-- The answer to a registration in some stage moves it to a later stage, and stores a document when
it is the successful answer to a write. -/
theorem answer_cases {s s' : Presentation} {k : ℕ} {ok : Bool} {m : Moment} (hs : s.Written)
    (h : s.answer k ok m = some s') :
    ∃ p q, s.registrations[k]? = some p ∧ p ≠ .stop ∧ stored p = false ∧ Stage q ∧
      s'.registrations = s.registrations.set k q ∧
      s'.written.length = s.written.length + (if stored q then 1 else 0) := by
  unfold answer at h
  cases hk : s.registrations[k]? with
  | none => simp [hk] at h
  | some p =>
    rw [hk] at h
    cases hs.stage p (List.mem_of_getElem? hk) with
    | animating c =>
      obtain rfl := Option.some.inj h
      exact ⟨_, c.writing (s.create, m), rfl, nofun, rfl, .writing c _, rfl, rfl⟩
    | writing c p =>
      cases ok with
      | true =>
        obtain rfl := Option.some.inj h
        exact ⟨_, .done ((), m), rfl, nofun, rfl, .stored m, rfl, List.length_append⟩
      | false =>
        obtain rfl := Option.some.inj h
        exact ⟨_, .stop, rfl, nofun, rfl, .failed, rfl, rfl⟩
    | failed => cases h
    | stored m => cases h

/-- A register tap starts a further registration. -/
theorem step_tap {s s' : Presentation} {m : Moment}
    (h : s.step sameName (.didTapRegisterButton m) = some s') :
    s'.dismissed = false ∧ s'.written = s.written ∧
      s'.registrations = s.registrations ++ [.call .animate s.create.writing] := by
  simp only [step] at h
  split_ifs at h with hdismissed
  obtain rfl := Option.some.inj h
  refine ⟨Bool.eq_false_iff.2 hdismissed, rfl, ?_⟩
  show s.registrations ++ [s.create.didTapRegisterButton.2.run m] = _
  rw [didTapRegisterButton_run]

/-- What one event does to the registrations: nothing, a further one, or an answer. -/
theorem step_cases {s s' : Presentation} {e : Event} (hs : s.Written)
    (h : s.step sameName e = some s') :
    (s'.registrations = s.registrations ∧ s'.written = s.written) ∨
    (∃ m, e = .didTapRegisterButton m ∧ s'.dismissed = false ∧ s'.written = s.written ∧
      s'.registrations = s.registrations ++ [.call .animate s.create.writing]) ∨
    ∃ k p q, s.registrations[k]? = some p ∧ p ≠ .stop ∧ stored p = false ∧ Stage q ∧
      s'.registrations = s.registrations.set k q ∧
      s'.written.length = s.written.length + (if stored q then 1 else 0) := by
  by_cases htap : ∃ m, e = .didTapRegisterButton m
  · obtain ⟨m, rfl⟩ := htap
    exact .inr (.inl ⟨m, rfl, step_tap h⟩)
  unfold step at h
  by_cases hdismissed : s.dismissed = true
  · rw [if_pos hdismissed] at h
    cases h
  rw [if_neg hdismissed] at h
  cases e with
  | didTapRegisterButton m => exact absurd ⟨m, rfl⟩ htap
  | screen e =>
    dsimp only at h
    split_ifs at h
    obtain ⟨create, -, rfl⟩ := Option.map_eq_some_iff.1 h
    exact .inl ⟨rfl, rfl⟩
  | answer k ok m =>
    obtain ⟨p, q, hanswer⟩ := answer_cases hs h
    exact .inr (.inr ⟨k, p, q, hanswer⟩)
  | fetched ok =>
    dsimp only at h
    split_ifs at h
    obtain rfl := Option.some.inj h
    exact .inl ⟨rfl, rfl⟩
  | didTapCloseButton =>
    obtain rfl := Option.some.inj h
    exact .inl ⟨rfl, rfl⟩

theorem written_new (create : CreateChatController) : (new create).Written :=
  ⟨fun _ h => absurd h List.not_mem_nil, rfl⟩

theorem step_written (s : Presentation) (e : Event) (s' : Presentation) (hs : s.Written)
    (h : s.step sameName e = some s') : s'.Written := by
  rcases step_cases hs h with ⟨hreg, hwritten⟩ | ⟨m, -, -, hwritten, hreg⟩ |
    ⟨k, p, q, hk, -, hp, hq, hreg, hwritten⟩
  · exact ⟨by rw [hreg]; exact hs.stage, by rw [hreg, hwritten]; exact hs.count⟩
  · constructor
    · rw [hreg]
      intro p hp
      rcases List.mem_append.1 hp with hp | hp
      · exact hs.stage p hp
      · rw [List.mem_singleton.1 hp]
        exact .animating _
    · rw [hreg, hwritten, List.countP_append, hs.count]
      rfl
  · obtain ⟨hlt, rfl⟩ := List.getElem?_eq_some_iff.1 hk
    constructor
    · rw [hreg]
      intro p hp'
      rcases List.mem_or_eq_of_mem_set hp' with hp' | rfl
      · exact hs.stage p hp'
      · exact hq
    · rw [hreg, hwritten, List.countP_set hlt, hs.count, hp]
      simp

/-! ## Taps after failures only -/

/-- The condition on an event: a register tap is made only when every earlier registration has
failed. -/
def TapsAfterFailure (s : Presentation) : Event → Prop
  | .didTapRegisterButton _ => ∀ p ∈ s.registrations, p = .stop
  | _ => True

/-- At most one registration has not failed. -/
def OneActive (s : Presentation) : Prop :=
  s.registrations.Pairwise fun p q => p = .stop ∨ q = .stop

theorem pairwise_set {α : Type*} {r : α → α → Prop} (hr : ∀ a b, r a b → r b a) {l : List α}
    {k : ℕ} {a b : α} (hl : l.Pairwise r) (hk : l[k]? = some a) (hab : ∀ c, r a c → r b c) :
    (l.set k b).Pairwise r := by
  rw [List.pairwise_iff_getElem] at hl ⊢
  obtain ⟨hk, rfl⟩ := List.getElem?_eq_some_iff.1 hk
  intro i j hi hj hij
  rw [List.length_set] at hi hj
  rw [List.getElem_set, List.getElem_set]
  have hold := hl i j hi hj hij
  by_cases hki : k = i
  · subst hki
    rw [if_pos rfl, if_neg (by omega)]
    exact hab _ hold
  · by_cases hkj : k = j
    · subst hkj
      rw [if_neg hki, if_pos rfl]
      exact hr _ _ (hab _ (hr _ _ hold))
    · rw [if_neg hki, if_neg hkj]
      exact hold

theorem step_oneActive (s : Presentation) (e : Event) (s' : Presentation) (hs : s.Written)
    (hone : s.OneActive) (hok : s.TapsAfterFailure e) (h : s.step sameName e = some s') :
    s'.OneActive := by
  unfold OneActive at hone ⊢
  rcases step_cases hs h with ⟨hreg, -⟩ | ⟨m, rfl, -, -, hreg⟩ |
    ⟨k, p, q, hk, hp, -, -, hreg, -⟩
  · rw [hreg]
    exact hone
  · rw [hreg]
    refine List.pairwise_append.2 ⟨hone, List.pairwise_singleton _ _, fun p hp q _ => ?_⟩
    exact Or.inl (hok p hp)
  · rw [hreg]
    exact pairwise_set (fun _ _ => Or.symm) hone hk fun c hc => Or.inr (hc.resolve_left hp)

theorem countP_stored_le_one {l : List (Running Unit)}
    (hl : l.Pairwise fun p q => p = .stop ∨ q = .stop) : l.countP stored ≤ 1 := by
  induction hl with
  | nil => exact Nat.zero_le 1
  | @cons p l hp _ ih =>
    rw [List.countP_cons]
    by_cases hstop : p = .stop
    · subst hstop
      simpa [stored] using ih
    · have hnone : l.countP stored = 0 := by
        rw [List.countP_eq_zero]
        intro q hq
        rw [(hp q hq).resolve_left hstop]
        exact Bool.false_ne_true
      split_ifs <;> omega

/-! ## A tap too many -/

/-- An event is the end of an animation or the answer to a write. -/
def isAnswer : Event → Bool
  | .answer _ _ _ => true
  | _ => false

theorem step_answer_animating {s : Presentation} {k : ℕ} {c : CreateChatController} (m : Moment)
    (hk : s.registrations[k]? = some (.call .animate c.writing)) (hopen : s.dismissed = false) :
    s.step sameName (.answer k true m) =
      some { s with registrations := s.registrations.set k (c.writing (s.create, m)) } := by
  unfold step
  rw [if_neg (Bool.eq_false_iff.1 hopen)]
  simp only [answer, hk]
  rfl

theorem step_answer_writing {s : Presentation} {k : ℕ} {c : CreateChatController}
    {p : CreateChatController × Moment} (m : Moment)
    (hk : s.registrations[k]? = some (c.writing p)) (hopen : s.dismissed = false) :
    ∃ s', s.step sameName (.answer k true m) = some s' ∧ s'.dismissed = false ∧
      s'.registrations = s.registrations.set k (.done ((), m)) := by
  unfold step
  rw [if_neg (Bool.eq_false_iff.1 hopen)]
  simp only [answer, hk, CreateChatController.writing]
  exact ⟨_, rfl, hopen, rfl⟩

/-- A registration that has not failed can be answered until its conversation is stored. -/
theorem exists_finish {s : Presentation} {k : ℕ} {p : Running Unit} (hs : s.Written)
    (hk : s.registrations[k]? = some p) (hp : p ≠ .stop) (hopen : s.dismissed = false) :
    ∃ fs s' q, (∀ f ∈ fs, isAnswer f) ∧ run (step sameName) s fs = some s' ∧ s'.dismissed = false ∧
      stored q = true ∧ s'.registrations = s.registrations.set k q := by
  have hlt := (List.getElem?_eq_some_iff.1 hk).1
  let m : Moment := ⟨0, "", "", 0⟩
  cases hs.stage p (List.mem_of_getElem? hk) with
  | failed => exact absurd rfl hp
  | stored m' =>
    refine ⟨[], s, .done ((), m'), nofun, rfl, hopen, rfl, ?_⟩
    rw [← (List.getElem?_eq_some_iff.1 hk).2, List.set_getElem_self]
  | writing c p =>
    obtain ⟨s', hstep, hopen', hreg⟩ := step_answer_writing m hk hopen
    refine ⟨[.answer k true m], s', .done ((), m), by simp [isAnswer], ?_, hopen', rfl, hreg⟩
    exact run_cons_eq_some.2 ⟨s', hstep, rfl⟩
  | animating c =>
    have hfirst : s.step sameName (.answer k true m) = _ := step_answer_animating m hk hopen
    obtain ⟨s', hstep, hopen', hreg⟩ := step_answer_writing
      (s := { s with registrations := s.registrations.set k (c.writing (s.create, m)) }) (k := k) m
      (List.getElem?_set_self hlt) hopen
    refine ⟨[.answer k true m, .answer k true m], s', .done ((), m), by simp [isAnswer], ?_,
      hopen', rfl, ?_⟩
    · exact run_cons_eq_some.2 ⟨_, hfirst, run_cons_eq_some.2 ⟨s', hstep, rfl⟩⟩
    · rw [hreg]
      exact List.set_set _

theorem two_le_countP {α : Type*} {f : α → Bool} {l : List α} {i j : ℕ} {a b : α} (hij : i < j)
    (ha : l[i]? = some a) (hfa : f a = true) (hb : l[j]? = some b) (hfb : f b = true) :
    2 ≤ l.countP f := by
  have hleft : 0 < (l.take j).countP f := by
    refine List.countP_pos_iff.2 ⟨a, List.mem_of_getElem? (i := i) ?_, hfa⟩
    rwa [List.getElem?_take_of_lt hij]
  have hright : 0 < (l.drop j).countP f := by
    refine List.countP_pos_iff.2 ⟨b, List.mem_of_getElem? (i := 0) ?_, hfb⟩
    rwa [List.getElem?_drop, Nat.add_zero]
  rw [← List.take_append_drop j l, List.countP_append]
  omega

/-- A tap while an earlier registration is pending or stored can lead to a second conversation. -/
theorem exists_second {s s' : Presentation} {m : Moment} {p : Running Unit} (hs : s.Written)
    (hmem : p ∈ s.registrations) (hp : p ≠ .stop)
    (h : s.step sameName (.didTapRegisterButton m) = some s') :
    ∃ fs w, (∀ f ∈ fs, isAnswer f) ∧ run (step sameName) s' fs = some w ∧ 2 ≤ w.written.length := by
  have hs' := step_written s _ s' hs h
  obtain ⟨hopen, -, hreg⟩ := step_tap h
  obtain ⟨k, hlt, hk⟩ := List.getElem_of_mem hmem
  have hkth : s'.registrations[k]? = some p := by
    rw [hreg, List.getElem?_append_left hlt, List.getElem?_eq_getElem hlt, hk]
  obtain ⟨fs, t, q, hfs, hrun, hopent, hq, hregt⟩ := exists_finish hs' hkth hp hopen
  have ht : t.Written := run_invariant step_written hs' hrun
  -- the new registration is the last one, so the answers to the earlier one have not moved it
  have hlast : t.registrations[s.registrations.length]? =
      some (.call .animate s.create.writing) := by
    rw [hregt, List.getElem?_set_ne (by omega), hreg, List.getElem?_append_right (Nat.le_refl _),
      Nat.sub_self]
    rfl
  obtain ⟨gs, w, q', hgs, hrunw, -, hq', hregw⟩ := exists_finish ht hlast nofun hopent
  have hw : w.Written := run_invariant step_written ht hrunw
  refine ⟨fs ++ gs, w, ?_, ?_, ?_⟩
  · intro f hf
    rcases List.mem_append.1 hf with hf | hf
    · exact hfs f hf
    · exact hgs f hf
  · rw [run_append, hrun]
    exact hrunw
  · have hlen : t.registrations.length = s.registrations.length + 1 := by
      rw [hregt, List.length_set, hreg, List.length_append, List.length_singleton]
    rw [hw.count]
    apply two_le_countP (i := k) (j := s.registrations.length) (a := q) (b := q') hlt _ hq _ hq'
    · rw [hregw, List.getElem?_set_ne (by omega), hregt]
      exact List.getElem?_set_self (by rw [hreg, List.length_append]; omega)
    · rw [hregw]
      exact List.getElem?_set_self (by omega)

/-- In every run of a presentation whose taps are made after failures only, at most one conversation
is written in every state.  From every other run, the answers to the pending steps at some moment
can lead to two. -/
theorem oneConversation (sameName : String → String → Bool) (create : CreateChatController)
    (es : List Event) :
    (AllSteps (step sameName) TapsAfterFailure (new create) es →
      EveryState (step sameName) (fun s => s.written.length ≤ 1) (new create) es) ∧
    (¬ AllSteps (step sameName) TapsAfterFailure (new create) es →
      ∃ es' fs s, es' <+: es ∧ (∀ f ∈ fs, isAnswer f) ∧
        run (step sameName) (new create) (es' ++ fs) = some s ∧ 2 ≤ s.written.length) := by
  constructor
  · refine everyState_of_allSteps (I := fun s => s.Written ∧ s.OneActive)
      (fun s e s' hs hok h => ⟨step_written s e s' hs.1 h, step_oneActive s e s' hs.1 hs.2 hok h⟩)
      (fun s hs => ?_) ⟨written_new create, List.Pairwise.nil⟩
    rw [hs.1.count]
    exact countP_stored_le_one hs.2
  · intro hmiss
    obtain ⟨es₁, e, es₂, t, t', rfl, hrun, hstep, hno⟩ := exists_of_not_allSteps hmiss
    have ht : t.Written := run_invariant step_written (written_new create) hrun
    cases e with
    | didTapRegisterButton m =>
      simp only [TapsAfterFailure, not_forall] at hno
      obtain ⟨p, hmem, hp⟩ := hno
      obtain ⟨fs, w, hfs, hrunw, htwo⟩ := exists_second ht hmem hp hstep
      refine ⟨es₁ ++ [.didTapRegisterButton m], fs, w, ⟨es₂, by simp⟩, hfs, ?_, htwo⟩
      rw [run_append, run_append, hrun]
      simp [run_cons, hstep, hrunw]
    | _ => exact absurd trivial hno

/-- The screen with two picked lines. -/
def readyToRegister : CreateChatController :=
  CreateChatController.presented.setBottomDialogues
    [⟨"Hello", "audio 1", 0, "line 1", "Anna", "image", "anna"⟩,
     ⟨"Goodbye", "audio 2", 0, "line 2", "Anna", "image", "anna"⟩]

/-- Two taps, one after the other, both of which succeed. -/
def tapTwice : List Event :=
  [.didTapRegisterButton ⟨0, "", "", 0⟩, .didTapRegisterButton ⟨0, "", "", 0⟩,
   .answer 0 true ⟨1, "first", "", 0⟩, .answer 1 true ⟨1, "second", "", 0⟩,
   .answer 0 true ⟨2, "", "", 0⟩, .answer 1 true ⟨2, "", "", 0⟩]

theorem tapTwice_stores_two :
    ¬ EveryState (step (· == ·)) (fun s => s.written.length ≤ 1) (new readyToRegister) tapTwice := by
  intro h
  have hrun : ∃ s, run (step (· == ·)) (new readyToRegister) tapTwice = some s ∧
      s.written.length = 2 := ⟨_, rfl, rfl⟩
  obtain ⟨s, hrun, htwo⟩ := hrun
  have := h.last hrun
  omega

end DialogueApp.Presentation
