import DialogueApp.Proof.CellColors
import DialogueApp.Proof.Controls

/-!
# The create screen of a client

What a run of the world is for the create screen of one client: its touches, the fetches answered to
it, and the completions of its uploads.  The client's screen is where these events take the screen on
its own, so what holds of every run of the screen holds in every interleaving.
-/

namespace DialogueApp

open Runs

namespace Client

variable {names : Names} {url : URLParser} {client : ℕ} {b b' : Backend} {cl cl' : Client}

/-- What the completion of an upload is for the create screen. -/
def completionEvent (cl : Client) (call : Call) : Option CreateChatController.Event :=
  match call.program with
  | .done (completion, _) =>
    match call.origin, completion with
    | .character _, .newInfo newInfo => some (.updateCharacter newInfo)
    | .dialogue screen, .dialogues dialogues =>
      match cl.screens[screen]?.map RegisterScreen.kind with
      | some (RegisterScreen.Kind.dialogue _ selectedCharacter) =>
        some (.addedDialogue dialogues selectedCharacter)
      | _ => none
    | _, _ => none
  | _ => none

/-- What an event of the client is for its create screen. -/
def createEvent (names : Names) (url : URLParser) (client : ℕ) (b : Backend) (cl : Client)
    (e : Event) : Option CreateChatController.Event :=
  match e with
  | .didTapRegisterButton _ => some .didTapRegisterButton
  | .answer k _ =>
    (cl.step names url client b e).bind fun (_, cl') => cl'.calls[k]?.bind cl.completionEvent
  | e => cl.screenEvent b e

/-- A completion does to the create screen what its event does. -/
theorem runCompletion_create (cl : Client) (call : Call) :
    run (CreateChatController.step names.sameName) cl.create (cl.completionEvent call).toList =
      some (cl.runCompletion names call).create := by
  obtain ⟨origin, program, callbacks, completions, sounds⟩ := call
  cases program with
  | done p =>
    obtain ⟨completion, m⟩ := p
    cases origin with
    | character screen =>
      cases completion with
      | newInfo newInfo =>
        simp only [runCompletion, complete, popToRoot_create]
        rfl
      | _ => rfl
    | dialogue screen =>
      cases completion with
      | dialogues dialogues =>
        cases hkind : cl.screens[screen]?.map RegisterScreen.kind with
        | none => simp [completionEvent, runCompletion, complete, hkind]
        | some kind =>
          cases kind with
          | character => simp [completionEvent, runCompletion, complete, hkind]
          | dialogue characterInfo selected =>
            simp only [completionEvent, runCompletion, complete, hkind, popToRoot_create]
            rfl
      | _ => rfl
    | conversation => rfl
  | _ => rfl

/-- One event of the client is its event of the create screen, or leaves the screen alone. -/
theorem step_createEvent {e : Event} (hstep : cl.step names url client b e = some (b', cl')) :
    run (CreateChatController.step names.sameName) cl.create
      (cl.createEvent names url client b e).toList = some cl'.create := by
  cases step_cases hstep with
  | @screen e e' create he hcreate =>
    have hevent : cl.createEvent names url client b e = some e' := by
      cases e <;> first | exact he | cases he
    rw [hevent]
    exact run_cons_eq_some.2 ⟨create, hcreate, rfl⟩
  | registerConversation hvisible =>
    refine run_cons_eq_some.2 ⟨cl.create.endKeyboard, ?_, rfl⟩
    rw [CreateChatController.step, hvisible]
    rfl
  | @answer k o _ _ hanswer =>
    obtain ⟨call, r, next, reply, hcall, hprogram, -, call', hcall', rfl⟩ := answer_cases hanswer
    have hevent : cl.createEvent names url client b (.answer k o) = cl.completionEvent call' := by
      rw [createEvent, hstep, Option.bind_some]
      dsimp only
      rw [runCompletion_calls, List.getElem?_set_self (List.getElem?_eq_some_iff.1 hcall).1]
      rfl
    rw [hevent]
    exact runCompletion_create
      { cl with
        colorNumber := cl.nextColor r
        calls := cl.calls.set k call' } call'
  | _ => rfl

end Client

namespace World

variable {names : Names} {url : URLParser} {disks : ℕ → Disk} {w w' : World}

/-- What an event of the world is for the create screen of the client. -/
def createEvent (names : Names) (url : URLParser) (client : ℕ) (w : World)
    (e : ℕ × Client.Event) : List CreateChatController.Event :=
  if e.1 = client then ((w.parts client).createEvent names url client w.shared e.2).toList else []

/-- What a run of the world is for the create screen of the client. -/
def createEvents (names : Names) (url : URLParser) (client : ℕ) (w : World)
    (es : List (ℕ × Client.Event)) : List CreateChatController.Event :=
  trace (step names url) (createEvent names url client) w es

theorem step_create (client : ℕ) {e : ℕ × Client.Event}
    (hstep : step names url w e = some w') :
    Runs.run (CreateChatController.step names.sameName) (w.parts client).create
      (createEvent names url client w e) = some (w'.parts client).create := by
  obtain ⟨client', e⟩ := e
  obtain ⟨hclient, hparts⟩ := Shared.advance_eq_some hstep
  by_cases hsame : client' = client
  · subst hsame
    rw [createEvent, if_pos rfl]
    exact Client.step_createEvent hclient
  · rw [createEvent, if_neg hsame, hparts client (Ne.symm hsame)]
    rfl

/-- In every run, the create screen of every client is where its own events take it. -/
theorem run_create {es : List (ℕ × Client.Event)} (hrun : run names url w es = some w')
    (client : ℕ) :
    Runs.run (CreateChatController.step names.sameName) (w.parts client).create
      (createEvents names url client w es) = some (w'.parts client).create :=
  run_trace (I := fun _ => True) (fun _ _ _ _ _ => trivial)
    (fun _ _ _ _ hstep => step_create client hstep) trivial hrun

/-- In every run, the picked lines of every client are those its own events have picked since its last
reset, and its controls go by their number. -/
theorem controlsOfPicks (es : List (ℕ × Client.Event)) (w : World)
    (hrun : run names url (init disks) es = some w) (client : ℕ) :
    (w.parts client).create.bottomDialogues =
      CreateChatController.picksSinceReset names.sameName CreateChatController.presented
        (createEvents names url client (init disks) es) ∧
    (w.parts client).create.ControlsAgree := by
  have hcreate := run_create hrun client
  exact ⟨CreateChatController.run_bottomDialogues hcreate,
    CreateChatController.run_controlsAgree hcreate⟩

theorem controlsOfPicks_sample :
    ∃ w, run Names.letters URLParser.nonempty (init fun _ => .new "documents")
        (registerCharacter ++ [pick, pick]) = some w ∧
      (w.parts 0).create.bottomDialogues.length = 2 ∧ (w.parts 0).create.ControlsAgree := by
  have hrun : ∃ w, run Names.letters URLParser.nonempty (init fun _ => .new "documents")
      (registerCharacter ++ [pick, pick]) = some w ∧
      (w.parts 0).create.bottomDialogues.length = 2 := ⟨_, rfl, rfl⟩
  obtain ⟨w, hrun, htwo⟩ := hrun
  exact ⟨w, hrun, htwo, (controlsOfPicks _ w hrun 0).2⟩

end World

/-! ## What is registered -/

/-- The conversation has two lines or more, each with a picture. -/
def TwoLines (data : Dictionary) : Prop :=
  2 ≤ (data.strings "dialogs").length ∧
    (data.strings "caracterImageUrls").length = (data.strings "dialogs").length

/-- What the request writes into the conversations has two lines or more. -/
def WritesTwoLines : Request → Prop
  | .setData .conversations _ data => TwoLines data
  | _ => True

theorem NoConversation.writesTwoLines {r : Request} (h : NoConversation r) : WritesTwoLines r := by
  cases r with
  | setData collection id data =>
    cases collection with
    | conversations => exact h.elim
    | _ => trivial
  | _ => trivial

/-- A register tap on two picked lines or more registers as many. -/
theorem didTapRegisterButton_twoLines {c : CreateChatController}
    (h : 2 ≤ c.bottomDialogues.length) {α : Type} (a : α) (m : Moment) :
    (((fun _ => a) <$> c.didTapRegisterButton.2).run m).Only WritesTwoLines := by
  refine Chain.only_map ?_
  rw [CreateChatController.didTapRegisterButton_run]
  refine ⟨trivial, fun p => ⟨?_, fun q => ?_⟩⟩
  · have hread := init_conversationData
      { conversations := p.1.selectedAudiosUrlStrings
        members := c.bottomDialogues.map (·.imageUrl)
        dialogues := c.bottomDialogues.map (·.dialogue)
        title := c.titleText } p.2.now 0 (ChatService.returnCellColor p.2.colorNumber).1
    have hdialogs := congrArg Conversation.dialogs hread
    have himages := congrArg Conversation.caracterImageUrls hread
    simp only [Conversation.init] at hdialogs himages
    rw [WritesTwoLines, CreateChatController.registeredData, TwoLines, hdialogs, himages]
    simpa using h
  · obtain ⟨_ | _, m'⟩ := q <;> trivial

namespace World

variable {names : Names} {url : URLParser} {disks : ℕ → Disk} {w w' : World}

/-- Every client can register two picked lines or more only, and so do its uploads. -/
structure RegistersTwo (w : World) : Prop where
  button : ∀ client, (w.parts client).create.ButtonNeedsTwo
  calls : ∀ client, ∀ call ∈ (w.parts client).calls, call.program.Only WritesTwoLines
  stored : ∀ d ∈ w.shared.conversations, TwoLines d.data

theorem step_registersTwo (w : World) (e : ℕ × Client.Event) (w' : World) (h : w.RegistersTwo)
    (hstep : step names url w e = some w') : w'.RegistersTwo := by
  obtain ⟨client, e⟩ := e
  obtain ⟨hclient, hparts⟩ := Shared.advance_eq_some hstep
  refine ⟨fun client' => ?_, fun client' => ?_, fun d hd => ?_⟩
  · exact run_invariant CreateChatController.step_buttonNeedsTwo (h.button client')
      (step_create client' hstep)
  · by_cases hsame : client' = client
    · subst hsame
      refine Client.step_forall_calls (fun _ _ _ => ?_) (fun _ _ _ => ?_) (fun hvisible m => ?_)
        (fun call r next reply m sounds hcall hprogram => ?_) (h.calls client') hclient
      · exact (Chain.only_map uploadCharacter_noConversation).mono
          fun _ => NoConversation.writesTwoLines
      · exact (Chain.only_map uploadDialogue_noConversation).mono
          fun _ => NoConversation.writesTwoLines
      · exact didTapRegisterButton_twoLines (h.button client' hvisible) _ m
      · rw [hprogram] at hcall
        exact hcall.2 (reply, m)
    · rw [hparts client' hsame]
      exact h.calls client'
  · rcases Client.step_conversations hclient hd with
      hold | ⟨k, call, id, data, next, hcall, hprogram, rfl⟩
    · exact h.stored d hold
    · have honly := h.calls client call (List.mem_of_getElem? hcall)
      rw [hprogram] at honly
      exact honly.1

theorem registersTwo_init (disks : ℕ → Disk) :
    (init disks).RegistersTwo := by
  refine ⟨fun _ => CreateChatController.buttonNeedsTwo_presented, ?_, nofun⟩
  exact fun _ call hcall => absurd hcall List.not_mem_nil

/-- In every run, each stored conversation has two lines or more, and a picture for each. -/
theorem conversationsHaveTwoLines (es : List (ℕ × Client.Event)) (w : World)
    (hrun : run names url (init disks) es = some w) :
    ∀ d ∈ w.shared.conversations, 2 ≤ (d.data.strings "dialogs").length ∧
      (d.data.strings "caracterImageUrls").length = (d.data.strings "dialogs").length :=
  (run_invariant step_registersTwo (registersTwo_init disks) hrun).stored

theorem conversationsHaveTwoLines_sample :
    ∃ w, run Names.letters URLParser.nonempty (init fun _ => .new "documents")
        (registerCharacter ++ (pick :: pick :: registerConversation)) = some w ∧
      w.shared.conversations.length = 1 ∧
      ∀ d ∈ w.shared.conversations, 2 ≤ (d.data.strings "dialogs").length := by
  have hrun : ∃ w, run Names.letters URLParser.nonempty (init fun _ => .new "documents")
      (registerCharacter ++ (pick :: pick :: registerConversation)) = some w ∧
      w.shared.conversations.length = 1 := ⟨_, rfl, rfl⟩
  obtain ⟨w, hrun, hone⟩ := hrun
  exact ⟨w, hrun, hone, fun d hd => (conversationsHaveTwoLines _ w hrun d hd).1⟩

end World

end DialogueApp
