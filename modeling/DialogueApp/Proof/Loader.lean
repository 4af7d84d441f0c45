import DialogueApp.Proof.ClientSteps
import DialogueApp.Proof.UploadShape
import DialogueApp.World

/-!
# The loader

A register tap shows the loader, and only the completion of its upload hides it again.  An upload
that returns early never comes to its completion, and nothing resumes it.
-/

namespace DialogueApp

open Runs

/-- The upload has been started on a registration screen. -/
def Origin.IsRegistration : Origin → Prop
  | .conversation => False
  | _ => True

/-- What the completion of the upload takes. -/
def Origin.Takes : Origin → Completion → Prop
  | .character _, .newInfo _ => True
  | .dialogue _, .dialogues _ => True
  | _, _ => False

namespace Client

/-- Nothing that has shown the loader is under way. -/
def Idle (cl : Client) : Prop :=
  cl.pickersOpening = 0 ∧
    ∀ call ∈ cl.calls, call.origin.IsRegistration → call.program.pending = false

/-- An upload without a pending step has called its completion once, and while nothing is pending the
loader is hidden. -/
structure Unblocked (cl : Client) : Prop where
  completes_once : ∀ call ∈ cl.calls, call.origin.IsRegistration →
    call.completions = if call.program.pending then 0 else 1
  loader_hidden : cl.Idle → cl.loaderShown = false

/-- The condition on an event: a character is registered with an image, and an answer brings the value
that its callback needs. -/
def Delivers (cl : Client) : Event → Prop
  | .register screen _ => ∀ s, cl.screens[screen]? = some s → s.kind = .character →
      s.selectedImage.jpegData ≠ none
  | .answer k o => ∀ call r next, cl.calls[k]? = some call → call.program = .call r next →
      call.origin.IsRegistration → NeedsValue r → o.ok = true
  | _ => True

section

variable {names : Names} {url : URLParser} {client : ℕ} {b b' : Backend} {cl cl' : Client}

/-! ## Uploads in flight -/

/-- What holds of an upload of a registration screen in every run, with the kinds of the screens. -/
structure Underway (kinds : List RegisterScreen.Kind) (call : Call) : Prop where
  early : call.program = .stop ∨ call.program.StopsOn Unanswered
  completions : call.completions = if call.program.finished then 1 else 0
  returns : call.program.Returns fun p => call.origin.Takes p.1
  screen : ∀ screen, call.origin = .dialogue screen →
    ∃ characterInfo selected, kinds[screen]? = some (.dialogue characterInfo selected)

/-- What holds of a client in every run. -/
structure Registers (cl : Client) : Prop where
  kinds : ∀ kind ∈ cl.kinds, kind.HasInfo
  calls : ∀ call ∈ cl.calls, call.origin.IsRegistration → Underway cl.kinds call

theorem Underway.opened {kinds opened : List RegisterScreen.Kind} {call : Call}
    (h : Underway kinds call) : Underway (kinds ++ opened) call := by
  refine ⟨h.early, h.completions, h.returns, fun screen horigin => ?_⟩
  obtain ⟨characterInfo, selected, hget⟩ := h.screen screen horigin
  refine ⟨characterInfo, selected, ?_⟩
  rw [List.getElem?_append_left (List.getElem?_eq_some_iff.1 hget).1]
  exact hget

/-- Whether the answer to a request has the value its callback needs. -/
theorem unanswered_iff {create : CreateChatController} {device : Device} {o : Outcome} {r : Request}
    {reply : Reply r} {m : Moment} (h : b.perform create device o r = some (b', reply)) :
    Unanswered r (reply, m) ↔ NeedsValue r ∧ o.ok = false := by
  cases r with
  | downloadURL path =>
    simp only [Backend.perform] at h
    split_ifs at h with hok
    · split at h
      · obtain ⟨-, rfl⟩ := Prod.mk.inj (Option.some.inj h)
        simp [Unanswered, NeedsValue, hok]
      · cases h
    · obtain ⟨-, rfl⟩ := Prod.mk.inj (Option.some.inj h)
      simp [Unanswered, NeedsValue, hok]
  | getDocuments collection =>
    simp only [Backend.perform] at h
    split_ifs at h with hok
    · obtain ⟨-, rfl⟩ := Prod.mk.inj (Option.some.inj h)
      simp [Unanswered, NeedsValue, hok]
    · obtain ⟨-, rfl⟩ := Prod.mk.inj (Option.some.inj h)
      simp [Unanswered, NeedsValue, hok]
  | _ => exact ⟨False.elim, fun h => h.1⟩

/-- A callback calls the completion at most once, and returns early only on an answer without a
value. -/
theorem Underway.resume {kinds : List RegisterScreen.Kind} {call : Call} (h : Underway kinds call)
    {r : Request} {next : Reply r × Moment → Running Completion}
    (hprogram : call.program = .call r next) (a : Reply r × Moment) (sounds : List Recording) :
    Underway kinds (call.resume (next a) sounds) := by
  obtain ⟨hearly, hcompletions, hreturns, hscreen⟩ := h
  rw [hprogram] at hearly hcompletions hreturns
  refine ⟨?_, ?_, hreturns a, hscreen⟩
  · have hstops := (hearly.resolve_left nofun) a
    by_cases hbad : Unanswered r a
    · exact Or.inl (hstops.1 hbad)
    · exact Or.inr (hstops.2 hbad)
  · show call.completions + _ = _
    rw [hcompletions]
    exact Nat.zero_add _

theorem underway_character {kinds : List RegisterScreen.Kind} {item : CharacterItem} {screen : ℕ}
    {m : Moment} :
    Underway kinds
      { origin := .character screen
        program := (.newInfo <$> CharacterService.uploadCharacter item).run m
        callbacks := 0, completions := 0, sounds := [] } := by
  cases himage : item.image.jpegData with
  | none =>
    rw [Chain.map_stop (uploadCharacter_stops himage)]
    exact ⟨Or.inl rfl, rfl, trivial, nofun⟩
  | some image =>
    have hpending := Chain.pending_map (g := Completion.newInfo)
      (uploadCharacter_pending (m := m) himage)
    refine ⟨Or.inr (Chain.stopsOn_map (uploadCharacter_stopsOn himage)), ?_,
      Chain.returns_map fun _ _ => trivial, nofun⟩
    rw [Async.not_finished hpending]
    rfl

theorem underway_dialogue {kinds : List RegisterScreen.Kind} {item : DialogueItem} {screen : ℕ}
    {m : Moment} {characterInfo : Option CharacterInfo} {selected : Character}
    (hkind : kinds[screen]? = some (.dialogue characterInfo selected)) :
    Underway kinds
      { origin := .dialogue screen
        program := (.dialogues <$> DialogueService.uploadDialogue item).run m
        callbacks := 0, completions := 0, sounds := [] } := by
  refine ⟨Or.inr (Chain.stopsOn_map uploadDialogue_stopsOn), rfl,
    Chain.returns_map fun _ _ => trivial, fun screen' horigin => ?_⟩
  obtain rfl := Origin.dialogue.inj horigin
  exact ⟨characterInfo, selected, hkind⟩

theorem registers_launched (disk : Disk) : (launched disk).Registers :=
  ⟨nofun, nofun⟩

/-- Every step keeps it. -/
theorem Registers.step {e : Event} (h : cl.Registers)
    (hstep : cl.step names url client b e = some (b', cl')) : cl'.Registers := by
  obtain ⟨opened, hkinds, hopened⟩ := step_kinds hstep
  refine ⟨fun kind hkind => ?_, fun call hmem hregistration => ?_⟩
  · rw [hkinds] at hkind
    rcases List.mem_append.1 hkind with hkind | hkind
    · exact h.kinds kind hkind
    · exact hopened kind hkind
  · rw [hkinds]
    apply Underway.opened
    obtain ⟨k, hk⟩ := List.getElem?_of_mem hmem
    cases step_calls hstep hk with
    | kept hold => exact h.calls call (List.mem_of_getElem? hold) hregistration
    | conversation horigin =>
      rw [horigin] at hregistration
      exact hregistration.elim
    | character => exact underway_character
    | dialogue hs hkind => exact underway_dialogue ((kinds_getElem? hs).trans (congrArg some hkind))
    | resumed hcall hprogram =>
      exact (h.calls _ (List.mem_of_getElem? hcall) hregistration).resume hprogram _ _

/-! ## When every answer delivers -/

/-- No upload of a registration screen has returned early, and a shown loader waits for something. -/
structure Delivered (cl : Client) : Prop where
  goes_on : ∀ call ∈ cl.calls, call.origin.IsRegistration → call.program ≠ .stop
  waits : cl.loaderShown = true → ¬ cl.Idle

theorem not_idle_of_pending {call : Call} (hmem : call ∈ cl.calls)
    (hregistration : call.origin.IsRegistration) (hpending : call.program.pending = true) :
    ¬ cl.Idle := by
  intro hidle
  have hnone := hidle.2 call hmem hregistration
  rw [hpending] at hnone
  cases hnone

theorem unblocked_of_delivered (h : cl.Registers) (hd : cl.Delivered) : cl.Unblocked := by
  refine ⟨fun call hmem hregistration => ?_, fun hidle => ?_⟩
  · rw [(h.calls call hmem hregistration).completions]
    cases hp : call.program with
    | stop => exact absurd hp (hd.goes_on call hmem hregistration)
    | _ => rfl
  · by_contra hshown
    exact hd.waits (eq_true_of_ne_false hshown) hidle

/-- A step that leaves the loader and the uploads alone. -/
theorem Delivered.same (hd : cl.Delivered) (hcalls : cl'.calls = cl.calls)
    (hloader : cl'.loaderShown = cl.loaderShown)
    (hpickers : cl'.pickersOpening = cl.pickersOpening) : cl'.Delivered := by
  refine ⟨?_, fun hshown hidle => ?_⟩
  · rw [hcalls]
    exact hd.goes_on
  · rw [hloader] at hshown
    refine hd.waits hshown ⟨hpickers ▸ hidle.1, ?_⟩
    rw [← hcalls]
    exact hidle.2

/-- A step that starts an upload which waits, or the upload of a conversation. -/
theorem Delivered.start (hd : cl.Delivered) {call : Call} (hcalls : cl'.calls = cl.calls ++ [call])
    (hpickers : cl'.pickersOpening = cl.pickersOpening)
    (hcall : call.origin.IsRegistration ∧ call.program.pending = true ∨
      ¬ call.origin.IsRegistration ∧ cl'.loaderShown = cl.loaderShown) : cl'.Delivered := by
  refine ⟨fun call' hmem hregistration => ?_, fun hshown hidle => ?_⟩
  · rw [hcalls] at hmem
    rcases List.mem_append.1 hmem with hmem | hmem
    · exact hd.goes_on call' hmem hregistration
    · obtain rfl := List.mem_singleton.1 hmem
      rcases hcall with ⟨-, hpending⟩ | ⟨hno, -⟩
      · intro hstop
        rw [hstop] at hpending
        cases hpending
      · exact absurd hregistration hno
  · rcases hcall with ⟨hregistration, hpending⟩ | ⟨-, hloader⟩
    · refine not_idle_of_pending ?_ hregistration hpending hidle
      rw [hcalls]
      exact List.mem_append_right _ (List.mem_singleton_self call)
    · rw [hloader] at hshown
      refine hd.waits hshown ⟨hpickers ▸ hidle.1, fun call' hmem => hidle.2 call' ?_⟩
      rw [hcalls]
      exact List.mem_append_left _ hmem

@[simp] theorem popToRoot_loaderShown (screen : ℕ) :
    (cl.popToRoot screen).loaderShown = cl.loaderShown := by
  unfold popToRoot
  split_ifs <;> rfl

/-- The completion of a registration hides the loader. -/
theorem runCompletion_loaderShown {call : Call} (h : Underway cl.kinds call)
    (hregistration : call.origin.IsRegistration) (hdone : call.program.finished = true) :
    (cl.runCompletion names call).loaderShown = false := by
  obtain ⟨-, -, hreturns, hscreen⟩ := h
  obtain ⟨⟨completion, m⟩, hp⟩ := Async.exists_done hdone
  rw [hp] at hreturns
  have hrun : cl.runCompletion names call = cl.complete names call.origin completion := by
    unfold runCompletion
    rw [hp]
  rw [hrun]
  cases horigin : call.origin with
  | character screen =>
    rw [horigin] at hreturns
    cases completion with
    | newInfo newInfo =>
      show (popToRoot _ screen).loaderShown = false
      rw [popToRoot_loaderShown]
      rfl
    | _ => exact hreturns.elim
  | dialogue screen =>
    rw [horigin] at hreturns
    obtain ⟨characterInfo, selected, hkind⟩ := hscreen screen horigin
    rw [kinds, List.getElem?_map] at hkind
    cases completion with
    | dialogues dialogues =>
      have hcomplete : cl.complete names (.dialogue screen) (.dialogues dialogues) =
          ({ cl with create := cl.create.addedDialogue dialogues selected }.showLoader
            false).popToRoot screen := by
        unfold complete
        simp only [hkind]
      rw [hcomplete, popToRoot_loaderShown]
      rfl
    | _ => exact hreturns.elim
  | conversation =>
    rw [horigin] at hregistration
    exact hregistration.elim

/-- The completion of a conversation leaves the loader alone. -/
theorem runCompletion_conversation {call : Call} (h : ¬ call.origin.IsRegistration) :
    cl.runCompletion names call = cl := by
  have horigin : call.origin = .conversation := by
    cases ho : call.origin with
    | conversation => rfl
    | _ =>
      rw [ho] at h
      exact absurd trivial h
  unfold runCompletion
  split
  · rw [horigin]
    rfl
  · rfl

/-- A callback whose answer delivers does not return early. -/
theorem Underway.goes_on {kinds : List RegisterScreen.Kind} {call : Call} (h : Underway kinds call)
    {r : Request} {next : Reply r × Moment → Running Completion}
    (hprogram : call.program = .call r next) {create : CreateChatController} {device : Device}
    {o : Outcome} {reply : Reply r} {m : Moment}
    (hperform : b.perform create device o r = some (b', reply))
    (hdelivers : NeedsValue r → o.ok = true) : next (reply, m) ≠ .stop := by
  intro hstop
  have hearly := h.early
  rw [hprogram] at hearly
  have hgood : ¬ Unanswered r (reply, m) := by
    rw [unanswered_iff hperform]
    rintro ⟨hneeds, hno⟩
    rw [hdelivers hneeds] at hno
    cases hno
  have hstops := ((hearly.resolve_left nofun) (reply, m)).2 hgood
  rw [hstop] at hstops
  exact hstops

/-- An answer that delivers. -/
theorem Delivered.answer (h : cl.Registers) (hd : cl.Delivered) {k : ℕ} {o : Outcome}
    (hdelivers : cl.Delivers (.answer k o))
    (hstep : cl.answer names client b k o = some (b', cl')) : cl'.Delivered := by
  obtain ⟨call, r, next, reply, hcall, hprogram, hperform, call', hcall', rfl⟩ := answer_cases hstep
  have hmem := List.mem_of_getElem? hcall
  have hself : call' ∈ cl.calls.set k call' :=
    List.mem_set (List.getElem?_eq_some_iff.1 hcall).1 call'
  have horigin : call'.origin = call.origin := by
    rw [hcall']
    rfl
  by_cases hregistration : call.origin.IsRegistration
  · have hunderway := h.calls call hmem hregistration
    have hgoes : call'.program ≠ .stop := by
      rw [hcall']
      exact hunderway.goes_on hprogram hperform (hdelivers call r next hcall hprogram hregistration)
    have hunderway' := hunderway.resume hprogram
      (reply, cl.moment names client k (call.callbacks + 1) o.now) (cl.soundOf r o)
    rw [← hcall'] at hunderway'
    refine ⟨fun call'' hmem'' hregistration'' => ?_, fun hshown => ?_⟩
    · rw [runCompletion_calls] at hmem''
      rcases List.mem_or_eq_of_mem_set hmem'' with hmem'' | rfl
      · exact hd.goes_on call'' hmem'' hregistration''
      · exact hgoes
    · cases hp : call'.program with
      | done a =>
        have hdone : call'.program.finished = true := by
          rw [hp]
          rfl
        refine absurd hshown (ne_true_of_eq_false ?_)
        exact runCompletion_loaderShown hunderway' (horigin ▸ hregistration) hdone
      | stop => exact absurd hp hgoes
      | call r' next' =>
        refine not_idle_of_pending ?_ (horigin ▸ hregistration) (by rw [hp]; rfl)
        rw [runCompletion_calls]
        exact hself
  · rw [← horigin] at hregistration
    rw [runCompletion_conversation hregistration]
    refine ⟨fun call'' hmem'' hregistration'' => ?_, fun hshown hidle => ?_⟩
    · rcases List.mem_or_eq_of_mem_set hmem'' with hmem'' | rfl
      · exact hd.goes_on call'' hmem'' hregistration''
      · exact absurd hregistration'' hregistration
    · refine hd.waits hshown ⟨hidle.1, fun call'' hmem'' hregistration'' => ?_⟩
      -- the conversation's upload is another one
      obtain ⟨k'', hk''⟩ := List.getElem?_of_mem hmem''
      have hne : k ≠ k'' := by
        rintro rfl
        obtain rfl : call = call'' := Option.some.inj (hcall.symm.trans hk'')
        exact hregistration (horigin ▸ hregistration'')
      refine hidle.2 call'' (List.mem_of_getElem? (i := k'') ?_) hregistration''
      rw [List.getElem?_set_ne hne]
      exact hk''

theorem delivered_launched (disk : Disk) : (launched disk).Delivered :=
  ⟨nofun, nofun⟩

theorem Delivered.step {e : Event} (h : cl.Registers) (hd : cl.Delivered) (hdelivers : cl.Delivers e)
    (hstep : cl.step names url client b e = some (b', cl')) : cl'.Delivered := by
  cases step_cases hstep with
  | screen => exact hd.same rfl rfl rfl
  | registerConversation => exact hd.start rfl rfl (Or.inr ⟨id, rfl⟩)
  | addNothing => exact hd
  | addDialogue => exact hd.same rfl rfl rfl
  | showRegister => exact hd.same rfl rfl rfl
  | back => exact hd.same rfl rfl rfl
  | onScreen => exact hd.same rfl rfl rfl
  | @registerCharacter screen s now hs hkind =>
    obtain ⟨image, himage⟩ := Option.ne_none_iff_exists'.1 (hdelivers s hs hkind)
    exact hd.start rfl rfl
      (Or.inl ⟨trivial, Chain.pending_map (@uploadCharacter_pending _ _ image himage)⟩)
  | registerDialogue => exact hd.start rfl rfl (Or.inl ⟨trivial, rfl⟩)
  | @registerNothing screen s now selected hs hkind =>
    have hinfo := h.kinds s.kind (List.mem_map_of_mem (List.mem_of_getElem? hs))
    rw [hkind] at hinfo
    exact absurd rfl hinfo
  | pickerOpening => exact ⟨hd.goes_on, fun _ hidle => Nat.succ_ne_zero _ hidle.1⟩
  | pickerPresented => exact ⟨hd.goes_on, nofun⟩
  | answer hanswer => exact hd.answer h hdelivers hanswer

/-! ## When one does not -/

/-- An upload of a registration screen has returned early. -/
def Stuck (cl : Client) : Prop :=
  ∃ (k : ℕ) (call : Call), cl.calls[k]? = some call ∧ call.origin.IsRegistration ∧
    call.program = .stop

/-- An upload that has returned early has not called its completion. -/
theorem not_unblocked_of_stuck (h : cl.Registers) (hstuck : cl.Stuck) : ¬ cl.Unblocked := by
  obtain ⟨k, call, hcall, hregistration, hstop⟩ := hstuck
  have hmem := List.mem_of_getElem? hcall
  intro hunblocked
  have honce := hunblocked.completes_once call hmem hregistration
  rw [(h.calls call hmem hregistration).completions, hstop] at honce
  cases honce

/-- Nothing resumes it. -/
theorem Stuck.step {e : Event} (hstuck : cl.Stuck)
    (hstep : cl.step names url client b e = some (b', cl')) : cl'.Stuck := by
  obtain ⟨k, call, hcall, hregistration, hstop⟩ := hstuck
  rcases step_call hstep hcall with ⟨o, rfl⟩ | hcall'
  · obtain ⟨r, next, reply, m, hprogram, -⟩ := answer_call hstep hcall
    rw [hstop] at hprogram
    cases hprogram
  · exact ⟨k, call, hcall', hregistration, hstop⟩

/-- What a missed event leaves. -/
theorem stuck_of_miss {e : Event} (h : cl.Registers)
    (hstep : cl.step names url client b e = some (b', cl')) (hmiss : ¬ cl.Delivers e) :
    cl'.Stuck := by
  cases e with
  | register screen now =>
    simp only [Delivers, not_forall, not_not] at hmiss
    obtain ⟨s, hs, hkind, hnone⟩ := hmiss
    cases step_cases hstep with
    | screen he => cases he
    | @registerCharacter _ s' _ hs' =>
      obtain rfl : s = s' := Option.some.inj (hs.symm.trans hs')
      refine ⟨cl.calls.length, _, List.getElem?_concat_length, trivial, ?_⟩
      exact Chain.map_stop (uploadCharacter_stops hnone)
    | registerDialogue hs' hkind' | registerNothing hs' hkind' =>
      obtain rfl := Option.some.inj (hs.symm.trans hs')
      rw [hkind] at hkind'
      cases hkind'
  | answer k o =>
    simp only [Delivers, not_forall] at hmiss
    obtain ⟨call, r, next, hcall, hprogram, hregistration, hneeds, hno⟩ := hmiss
    obtain ⟨reply, m, hperform, hget⟩ := answer_program hstep hcall hprogram
    have hearly := (h.calls call (List.mem_of_getElem? hcall) hregistration).early
    rw [hprogram] at hearly
    have hbad : Unanswered r (reply, m) :=
      (unanswered_iff hperform).2 ⟨hneeds, eq_false_of_ne_true hno⟩
    exact ⟨k, _, hget, hregistration, ((hearly.resolve_left nofun) (reply, m)).1 hbad⟩
  | _ => exact absurd trivial hmiss

end

end Client

namespace World

variable {names : Names} {url : URLParser} {disks : ℕ → Disk}

/-- In every run and for every client, the registration screens are not blocked exactly when all
events of the client deliver. -/
theorem unblocked_iff (client : ℕ) (es : List (ℕ × Client.Event)) (w : World)
    (hrun : run names url (init disks) es = some w) :
    (w.parts client).Unblocked ↔
      AllSteps (step names url) (fun w e => e.1 = client → (w.parts client).Delivers e.2)
        (init disks) es :=
  Shared.run_part_iff (fun _ _ _ _ _ h hstep => h.step hstep)
    (fun _ _ _ _ _ h hd hok hstep => hd.step h hok hstep)
    (fun _ _ _ _ _ h hstep hmiss => Client.stuck_of_miss h hstep hmiss)
    (fun _ _ _ _ _ _ hstuck hstep => hstuck.step hstep)
    (fun _ h hd => Client.unblocked_of_delivered h hd)
    (fun _ h hstuck => Client.not_unblocked_of_stuck h hstuck)
    (Client.registers_launched _) (Client.delivered_launched _) hrun

theorem unblocked_sample :
    ∃ w, run Names.letters URLParser.nonempty (init fun _ => .new "documents") registerCharacter =
        some w ∧
      (w.parts 0).calls.length = 1 ∧ (w.parts 0).Unblocked := by
  have hrun : ∃ w, run Names.letters URLParser.nonempty (init fun _ => .new "documents")
      registerCharacter = some w ∧ (w.parts 0).calls.length = 1 := ⟨_, rfl, rfl⟩
  obtain ⟨w, hrun, hone⟩ := hrun
  refine ⟨w, hrun, hone, (unblocked_iff 0 _ w hrun).2 ?_⟩
  refine allSteps_cons rfl (fun _ => trivial) (allSteps_cons rfl (fun _ => trivial) ?_)
  refine allSteps_cons rfl (fun _ => trivial) (allSteps_cons rfl (fun _ => trivial) ?_)
  refine allSteps_cons rfl (fun _ => ?_) (allSteps_of_forall fun e he w _ => ?_)
  · -- the picture has been picked
    intro s hs _ hnone
    obtain rfl := Option.some.inj hs
    cases hnone
  · have hok : ∀ e : ℕ × Client.Event, e ∈ registerCharacter.drop 5 →
        ∃ url found, e.2 = .answer 0 (success url found) := by
      simp [registerCharacter]
    obtain ⟨url, found, heq⟩ := hok e he
    rw [heq]
    exact fun _ _ _ _ _ _ _ => rfl

/-- A character is registered before its picture is picked. -/
def registerWithoutImage : List (ℕ × Client.Event) :=
  [(0, .showRegisterViewController), (0, .register 0 0)]

theorem not_unblocked_registerWithoutImage :
    ∃ w, run Names.letters URLParser.nonempty (init fun _ => .new "documents") registerWithoutImage =
        some w ∧
      (w.parts 0).Idle ∧ (w.parts 0).loaderShown = true ∧ ¬ (w.parts 0).Unblocked := by
  have hrun : ∃ w, run Names.letters URLParser.nonempty (init fun _ => .new "documents")
      registerWithoutImage = some w ∧ (w.parts 0).loaderShown = true ∧
      (w.parts 0).pickersOpening = 0 ∧
      (w.parts 0).calls.map (fun call => call.program.pending) = [false] :=
    ⟨_, rfl, rfl, rfl, rfl⟩
  obtain ⟨w, hrun, hshown, hpickers, hpending⟩ := hrun
  have hidle : (w.parts 0).Idle := by
    refine ⟨hpickers, fun call hmem _ => ?_⟩
    have hcall := List.mem_map_of_mem (f := fun call : Call => call.program.pending) hmem
    rw [hpending] at hcall
    exact List.mem_singleton.1 hcall
  refine ⟨w, hrun, hidle, hshown, fun hunblocked => ?_⟩
  rw [hunblocked.loader_hidden hidle] at hshown
  cases hshown

end World

end DialogueApp
