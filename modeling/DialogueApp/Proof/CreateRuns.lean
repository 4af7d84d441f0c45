import DialogueApp.Controllers.Presentation
import DialogueApp.Proof.Controls
import DialogueApp.Proof.Dismissals
import DialogueApp.Proof.PreviewPlay
import DialogueApp.Proof.Reset
import DialogueApp.Proof.RoundTrip

/-!
# The create screen within its surroundings

The preview player, one presentation and the two screens each have the create screen as a part.  Its
share of a run of theirs is a run of its own, so its controls and its picked lines are there what they
are on their own: they say when a preview or a registration can be started and what a preview takes.
-/

namespace DialogueApp

open Runs

variable {sameName : String → String → Bool}

/-! ## The preview -/

namespace CreateChatPlayer

variable {url : URLParser} {s s' : CreateChatPlayer}

/-- What an event is for the create screen. -/
def createEvent (_ : CreateChatPlayer) : Event → List CreateChatController.Event
  | .screen e => [e]
  | _ => []

/-- What a run is for the create screen. -/
def createEvents (url : URLParser) (sameName : String → String → Bool) (es : List Event) :
    List CreateChatController.Event :=
  trace (step url sameName) createEvent launched es

/-- A start plays the clip at the play index or nothing. -/
theorem startPlay_eq (s : CreateChatPlayer) (loads : Bool) :
    s.startPlay loads = s ∨ ∃ clip, s.startPlay loads = s.playing clip := by
  cases loads with
  | false => exact Or.inl (startPlay_failed s)
  | true =>
    cases hclip : s.selectedAudios[s.playNum]? with
    | none => exact Or.inl (startPlay_none hclip)
    | some clip => exact Or.inr ⟨clip, startPlay_some hclip⟩

theorem startPlay_create (s : CreateChatPlayer) (loads : Bool) :
    (s.startPlay loads).create = s.create := by
  obtain h | ⟨clip, h⟩ := startPlay_eq s loads
  · rw [h]
  · rw [h]
    rfl

theorem startPlay_selectedAudios (s : CreateChatPlayer) (loads : Bool) :
    (s.startPlay loads).selectedAudios = s.selectedAudios := by
  obtain h | ⟨clip, h⟩ := startPlay_eq s loads
  · rw [h]
  · rw [h]
    rfl

theorem step_create {e : Event} (h : s.step url sameName e = some s') :
    run (CreateChatController.step sameName) s.create (s.createEvent e) = some s'.create := by
  unfold step at h
  split_ifs at h
  cases e with
  | screen e =>
    obtain ⟨create, hcreate, rfl⟩ := Option.map_eq_some_iff.1 h
    exact run_cons_eq_some.2 ⟨create, hcreate, rfl⟩
  | didTapStartButton loads =>
    obtain rfl := Option.some.inj h
    rw [didTapStartButton_eq, startPlay_create]
    rfl
  | didFinishPlaying loads =>
    obtain rfl := Option.some.inj h
    rw [audioPlayerDidFinishPlaying, startPlay_create]
    rfl
  | didTapCloseButton | dismissed =>
    obtain rfl := Option.some.inj h
    rfl

/-- The create screen is where its own events take it. -/
theorem run_create {es : List Event} (hrun : run (step url sameName) launched es = some s) :
    run (CreateChatController.step sameName) CreateChatController.presented
      (createEvents url sameName es) = some s.create := by
  show run (CreateChatController.step sameName) launched.create _ = _
  exact run_trace (I := fun _ => True) (fun _ _ _ _ _ => trivial) (fun _ _ _ _ h => step_create h)
    trivial hrun

/-- In every run, a preview can be started exactly while the screen is presented and a line has been
picked since the last reset, and it takes the clips of the lines picked since then, in order. -/
theorem startsWithPicks (url : URLParser) (sameName : String → String → Bool) (es : List Event)
    (s : CreateChatPlayer) (hrun : run (step url sameName) launched es = some s) (loads : Bool) :
    ((s.step url sameName (.didTapStartButton loads)).isSome = true ↔
      s.presented = true ∧ CreateChatController.picksSinceReset sameName
        CreateChatController.presented (createEvents url sameName es) ≠ []) ∧
    ∀ s', s.step url sameName (.didTapStartButton loads) = some s' →
      s'.selectedAudios = clips url (CreateChatController.picksSinceReset sameName
        CreateChatController.presented (createEvents url sameName es)) := by
  have hcreate := run_create hrun
  have hpicks := CreateChatController.run_bottomDialogues hcreate
  have hstart := (CreateChatController.run_controlsAgree hcreate).startButton
  rw [← hpicks]
  constructor
  · rw [step, canHappen, hstart]
    cases s.create.bottomDialogues with
    | nil => simp
    | cons dialogue dialogues => cases s.presented <;> simp [handle]
  · intro s' h
    unfold step at h
    split_ifs at h
    obtain rfl := Option.some.inj h
    rw [didTapStartButton_eq, startPlay_selectedAudios]

theorem startsWithPicks_pickTwo :
    ∃ s, run (step .nonempty (· == ·)) launched pickTwo = some s ∧
      ((s.step .nonempty (· == ·) (.didTapStartButton true)).isSome = true ↔
        s.presented = true ∧ CreateChatController.picksSinceReset (· == ·)
          CreateChatController.presented (createEvents .nonempty (· == ·) pickTwo) ≠ []) ∧
      ∀ s', s.step .nonempty (· == ·) (.didTapStartButton true) = some s' →
        s'.selectedAudios = clips .nonempty (CreateChatController.picksSinceReset (· == ·)
          CreateChatController.presented (createEvents .nonempty (· == ·) pickTwo)) := by
  have hrun : ∃ s, run (step .nonempty (· == ·)) launched pickTwo = some s := ⟨_, rfl⟩
  obtain ⟨s, hrun⟩ := hrun
  exact ⟨s, hrun, startsWithPicks .nonempty (· == ·) pickTwo s hrun true⟩

end CreateChatPlayer

/-! ## One presentation -/

namespace Presentation

variable {s s' : Presentation}

/-- What an event is for the create screen. -/
def createEvent (_ : Presentation) : Event → List CreateChatController.Event
  | .screen e => [e]
  | .didTapRegisterButton _ => [.didTapRegisterButton]
  | _ => []

theorem answer_create {k : ℕ} {ok : Bool} {m : Moment} (h : s.answer k ok m = some s') :
    s'.create = s.create := by
  unfold answer at h
  split at h
  · obtain ⟨⟨written, reply⟩, -, rfl⟩ := Option.map_eq_some_iff.1 h
    rfl
  · cases h

theorem step_create {e : Event} (h : s.step sameName e = some s') :
    run (CreateChatController.step sameName) s.create (s.createEvent e) = some s'.create := by
  cases e with
  | screen e =>
    simp only [step] at h
    split_ifs at h
    obtain ⟨create, hcreate, rfl⟩ := Option.map_eq_some_iff.1 h
    exact run_cons_eq_some.2 ⟨create, hcreate, rfl⟩
  | didTapRegisterButton m =>
    simp only [step] at h
    split_ifs at h with _ hhidden
    obtain rfl := Option.some.inj h
    exact run_cons_eq_some.2 ⟨s.create.endKeyboard, if_neg hhidden, rfl⟩
  | answer k ok m =>
    simp only [step] at h
    split_ifs at h
    exact congrArg some (answer_create h).symm
  | fetched ok =>
    simp only [step] at h
    split_ifs at h
    obtain rfl := Option.some.inj h
    rfl
  | didTapCloseButton =>
    simp only [step] at h
    split_ifs at h
    obtain rfl := Option.some.inj h
    rfl

/-- The create screen is where its own events take it. -/
theorem run_create {es : List Event} (hrun : run (step sameName) s es = some s') :
    run (CreateChatController.step sameName) s.create (trace (step sameName) createEvent s es) =
      some s'.create :=
  run_trace (I := fun _ => True) (fun _ _ _ _ _ => trivial) (fun _ _ _ _ h => step_create h)
    trivial hrun

end Presentation

/-! ## The two screens -/

namespace Screens

variable {s s' : Screens}

/-- What the completion of a fetch is for the create screen. -/
def fetchEvent (f : Fetch) : List CreateChatController.Event :=
  match f.purpose with
  | .characters => [.fetchCharacters f.characters]
  | .dialogues => [.fetchDialogues f.dialogues]
  | .newDialogues characters => [.updateCharacter { characters, dialogues := f.dialogues }]
  | .addedDialogues selected => [.addedDialogue f.dialogues selected]
  | .conversations => []
  | .newCharacters => []

theorem handle_create (s : Screens) (k : ℕ) (f : Fetch) :
    run (CreateChatController.step sameName) s.create (fetchEvent f) =
      some (s.handle sameName k f).create := by
  unfold handle fetchEvent
  cases f.purpose with
  | conversations => rw [dismiss_create]; rfl
  | _ => rfl

/-- The condition on an event: a registration screen, which writes, has been opened from the create
screen. -/
def FromScreen (s : Screens) : Event → Prop
  | .characterWritten => s.viewLoaded = true
  | .dialogueWritten _ => s.viewLoaded = true
  | _ => True

/-- Before its view is loaded the create screen is the new object, which only conversations are
fetched beside; from then on it is what its own events make of it. -/
structure OnItsOwn (sameName : String → String → Bool) (s : Screens) : Prop where
  unloaded : s.viewLoaded = false →
    s.create = .new ∧ s.presented = false ∧ ∀ f ∈ s.fetches, f.purpose = .conversations
  loaded : s.viewLoaded = true →
    ∃ es, run (CreateChatController.step sameName) CreateChatController.presented es = some s.create

theorem launched_onItsOwn : launched.OnItsOwn sameName :=
  ⟨fun _ => ⟨rfl, rfl, by simp [launched, fetchConversations, issue]⟩, nofun⟩

/-- A step of the loaded screen, with its own events. -/
theorem OnItsOwn.step_loaded (hs : s.OnItsOwn sameName) (hloaded : s.viewLoaded = true)
    (hloaded' : s'.viewLoaded = true) {l : List CreateChatController.Event}
    (hl : run (CreateChatController.step sameName) s.create l = some s'.create) :
    s'.OnItsOwn sameName := by
  refine ⟨fun hunloaded => absurd (hloaded'.symm.trans hunloaded) Bool.noConfusion, fun _ => ?_⟩
  obtain ⟨es, hes⟩ := hs.loaded hloaded
  refine ⟨es ++ l, ?_⟩
  rw [run_append, hes]
  exact hl

/-- A step that leaves the create screen alone and fetches nothing beside an unloaded one but
conversations. -/
theorem OnItsOwn.same (hs : s.OnItsOwn sameName) (hloaded : s'.viewLoaded = s.viewLoaded)
    (hcreate : s'.create = s.create) (hpresented : s'.presented = true → s.presented = true)
    (hfetches : s.viewLoaded = false → (∀ f ∈ s.fetches, f.purpose = .conversations) →
      ∀ f ∈ s'.fetches, f.purpose = .conversations) : s'.OnItsOwn sameName := by
  constructor
  · intro hunloaded
    rw [hloaded] at hunloaded
    obtain ⟨hnew, hnot, hall⟩ := hs.unloaded hunloaded
    refine ⟨hcreate.trans hnew, ?_, hfetches hunloaded hall⟩
    exact Bool.eq_false_iff.2 fun h => Bool.eq_false_iff.1 hnot (hpresented h)
  · intro h
    rw [hcreate]
    exact hs.loaded (hloaded ▸ h)

theorem OnItsOwn.loaded_of_presented (hs : s.OnItsOwn sameName) (h : s.presented = true) :
    s.viewLoaded = true := by
  by_contra hunloaded
  have hnot := (hs.unloaded (Bool.eq_false_iff.2 hunloaded)).2.1
  exact absurd (h.symm.trans hnot) Bool.noConfusion

theorem dismiss_presented (s : Screens) (fetch : Option ℕ) :
    (s.dismiss fetch).presented = false := by
  unfold dismiss
  split_ifs with h
  · rfl
  · exact Bool.eq_false_iff.2 h

theorem dismiss_viewLoaded (s : Screens) (fetch : Option ℕ) :
    (s.dismiss fetch).viewLoaded = s.viewLoaded := by
  unfold dismiss
  split_ifs <;> rfl

theorem dismiss_fetches (s : Screens) (fetch : Option ℕ) :
    (s.dismiss fetch).fetches = s.fetches := by
  unfold dismiss
  split_ifs <;> rfl

/-- A dismissal. -/
theorem OnItsOwn.dismiss (hs : s.OnItsOwn sameName) (fetch : Option ℕ) :
    (s.dismiss fetch).OnItsOwn sameName := by
  refine hs.same (dismiss_viewLoaded s _) (dismiss_create s _) (fun h => ?_) fun _ hall => ?_
  · exact absurd ((dismiss_presented s _).symm.trans h) Bool.noConfusion
  · rw [dismiss_fetches]
    exact hall

theorem handle_viewLoaded (s : Screens) (k : ℕ) (f : Fetch) :
    (s.handle sameName k f).viewLoaded = s.viewLoaded := by
  unfold handle
  cases f.purpose with
  | conversations => exact dismiss_viewLoaded _ _
  | _ => rfl

/-- The answer to a fetch keeps its purpose in its place. -/
theorem purpose_set {fetches : List Fetch} {k : ℕ} {f : Fetch} {answer : FetchAnswer}
    (hall : ∀ f ∈ fetches, f.purpose = .conversations) (hk : fetches[k]? = some f) :
    ∀ g ∈ fetches.set k ⟨f.purpose, answer⟩, g.purpose = .conversations := by
  intro g hg
  obtain hg | rfl := List.mem_or_eq_of_mem_set hg
  · exact hall g hg
  · exact hall f (List.mem_of_getElem? hk)

/-- A completion; beside an unloaded screen it is one of a fetch of conversations. -/
theorem handle_onItsOwn (hs : s.OnItsOwn sameName) {k : ℕ} {f : Fetch}
    (hf : s.viewLoaded = false → f.purpose = .conversations) :
    (s.handle sameName k f).OnItsOwn sameName := by
  by_cases hloaded : s.viewLoaded = true
  · exact hs.step_loaded hloaded ((handle_viewLoaded s k f).trans hloaded) (handle_create s k f)
  · have hsame : OnItsOwn sameName { s with top := s.top.fetchConversations f.conversations } :=
      hs.same rfl rfl id fun _ hall => hall
    rw [handle, hf (Bool.eq_false_iff.2 hloaded)]
    exact hsame.dismiss (some k)

theorem answer_onItsOwn {k : ℕ} {snapshot : Option (List Document × Timestamp)}
    (hs : s.OnItsOwn sameName) (h : s.answer sameName k snapshot = some s') : s'.OnItsOwn sameName := by
  obtain ⟨purpose, hk, ⟨-, rfl⟩ | ⟨documents, now, -, rfl⟩⟩ := answer_cases h
  · exact hs.same rfl rfl id fun _ hall => purpose_set hall hk
  · have hnoted : OnItsOwn sameName { s with
        fetches := s.fetches.set k ⟨purpose, .documents documents now⟩
        arrivals := s.arrivals ++ [⟨purpose, .documents documents now⟩] } :=
      hs.same rfl rfl id fun _ hall => purpose_set hall hk
    have hpurpose : s.viewLoaded = false → purpose = .conversations := fun hunloaded =>
      (hs.unloaded hunloaded).2.2 ⟨purpose, .pending⟩ (List.mem_of_getElem? hk)
    exact handle_onItsOwn hnoted hpurpose

theorem didTapCreateButton_onItsOwn (hs : s.OnItsOwn sameName) (onScreen : ℕ → Bool) :
    (s.didTapCreateButton onScreen).OnItsOwn sameName := by
  cases hloaded : s.viewLoaded with
  | true =>
    refine hs.step_loaded hloaded ?_ (l := [.defaultUI onScreen]) ?_
    · simp [didTapCreateButton, hloaded]
    · simp [didTapCreateButton, hloaded, run_cons, CreateChatController.step]
  | false =>
    obtain ⟨hnew, -, -⟩ := hs.unloaded hloaded
    have hcreate : (s.didTapCreateButton onScreen).create = .presented := by
      simp only [didTapCreateButton, hloaded, viewDidLoad, issue, hnew]
      rfl
    have hviewLoaded : (s.didTapCreateButton onScreen).viewLoaded = true := by
      simp [didTapCreateButton, hloaded, viewDidLoad]
    exact ⟨fun h => absurd (hviewLoaded.symm.trans h) Bool.noConfusion,
      fun _ => ⟨[], congrArg some hcreate.symm⟩⟩

theorem step_onItsOwn (s : Screens) (e : Event) (s' : Screens) (hs : s.OnItsOwn sameName)
    (hfrom : s.FromScreen e) (h : s.step sameName e = some s') : s'.OnItsOwn sameName := by
  cases e with
  | didTapCreateButton onScreen =>
    simp only [step] at h
    split_ifs at h
    obtain rfl := Option.some.inj h
    exact didTapCreateButton_onItsOwn hs onScreen
  | screen e =>
    simp only [step] at h
    split_ifs at h with hinput
    obtain ⟨create, hcreate, rfl⟩ := Option.map_eq_some_iff.1 h
    rw [Bool.and_eq_true] at hinput
    have hloaded := hs.loaded_of_presented hinput.1
    exact hs.step_loaded hloaded hloaded (l := [e]) (run_cons_eq_some.2 ⟨create, hcreate, rfl⟩)
  | didTapRegisterButton m =>
    simp only [step] at h
    split_ifs at h with hvisible
    obtain rfl := Option.some.inj h
    rw [Bool.and_eq_true, Bool.not_eq_true'] at hvisible
    have hloaded := hs.loaded_of_presented hvisible.1
    have hstep : s.create.step sameName .didTapRegisterButton = some s.create.endKeyboard := by
      rw [CreateChatController.step, hvisible.2]
      rfl
    exact hs.step_loaded hloaded hloaded (l := [.didTapRegisterButton])
      (run_cons_eq_some.2 ⟨_, hstep, rfl⟩)
  | registrationAnswered k ok m =>
    obtain ⟨registrations, rfl | ⟨presentation, rfl⟩⟩ := registrationAnswered_cases h
    · exact hs.same rfl rfl id fun _ hall => hall
    · refine hs.same rfl rfl id fun _ hall f hf => ?_
      obtain hf | hf := List.mem_append.1 hf
      · exact hall f hf
      · rw [List.mem_singleton.1 hf]
  | characterWritten | dialogueWritten selected =>
    obtain rfl := Option.some.inj h
    exact hs.same rfl rfl id fun hunloaded _ =>
      absurd (hfrom.symm.trans hunloaded) Bool.noConfusion
  | answer k snapshot => exact answer_onItsOwn hs h
  | didTapCloseButton =>
    simp only [step] at h
    split_ifs at h
    obtain rfl := Option.some.inj h
    exact hs.dismiss none

/-- In every run of the two screens, whatever is fetched, answered and dismissed in between, the create
screen is one its own events can bring about, and a registration can be started exactly while the
screen is presented with two picked lines or more. -/
theorem canRegister_iff (sameName : String → String → Bool) (es : List Event) (s : Screens)
    (hrun : run (step sameName) launched es = some s)
    (hfrom : AllSteps (step sameName) FromScreen launched es) (m : Moment) :
    s.create.Reachable sameName ∧ ((s.step sameName (.didTapRegisterButton m)).isSome = true ↔
      s.presented = true ∧ 2 ≤ s.create.bottomDialogues.length) := by
  have hs : s.OnItsOwn sameName := run_invariant_of_allSteps step_onItsOwn launched_onItsOwn hfrom hrun
  constructor
  · cases hloaded : s.viewLoaded with
    | true => exact Or.inr (hs.loaded hloaded)
    | false => exact Or.inl (hs.unloaded hloaded).1
  · cases hpresented : s.presented with
    | false => simp [step, hpresented]
    | true =>
      obtain ⟨fs, hfs⟩ := hs.loaded (hs.loaded_of_presented hpresented)
      have hbutton := (CreateChatController.run_controlsAgree hfs).registerButton
      by_cases hfew : s.create.bottomDialogues.length < 2
      · exact iff_of_false (by simp [step, hpresented, hbutton, hfew]) (by omega)
      · exact iff_of_true (by simp [step, hpresented, hbutton, hfew]) ⟨rfl, by omega⟩

/-- A character with two lines is selected and both are picked. -/
def pickTwo : List Event :=
  [.didTapCreateButton fun _ => true,
   .answer 2 (some ([⟨"line 1", DialogueService.dialogueData "anna" "line 1" "Hello" "audio 1" "Anna"
        "image" 0⟩,
      ⟨"line 2", DialogueService.dialogueData "anna" "line 2" "Goodbye" "audio 2" "Anna"
        "image" 0⟩], 0)),
   .screen (.selectCharacter ⟨"Anna", "image", 0, "anna"⟩),
   .screen (.didSelectRow 0), .screen (.didSelectRow 1)]

theorem canRegister_iff_pickTwo :
    ∃ s, run (step (· == ·)) launched pickTwo = some s ∧
      s.create.Reachable (· == ·) ∧
      ((s.step (· == ·) (.didTapRegisterButton ⟨0, "id", "uuid", 0⟩)).isSome = true ↔
        s.presented = true ∧ 2 ≤ s.create.bottomDialogues.length) := by
  have hrun : ∃ s, run (step (· == ·)) launched pickTwo = some s := ⟨_, rfl⟩
  obtain ⟨s, hrun⟩ := hrun
  refine ⟨s, hrun, canRegister_iff (· == ·) pickTwo s hrun ?_ _⟩
  exact allSteps_of_forall fun e he s => by
    simp only [pickTwo, List.mem_cons, List.not_mem_nil, or_false] at he
    rcases he with rfl | rfl | rfl | rfl | rfl <;> trivial

end Screens

end DialogueApp
