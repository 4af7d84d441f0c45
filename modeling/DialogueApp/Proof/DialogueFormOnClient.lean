import DialogueApp.Proof.OnClient
import DialogueApp.Proof.RegisterDialogueForm

/-!
# The form for a further line on its client

Every run of the form for a further line, opened for the character selected on the create screen, is a
run of the world.
-/

namespace DialogueApp

open Runs

namespace RegisterDialogueForm

/-- The client shows the form on top of the screens of `cl` and has started the form's uploads. -/
def OnClient (cl : Client) (s : RegisterDialogueForm) (cl' : Client) : Prop :=
  ∃ calls, cl.OnTop s.screen s.device calls cl' ∧
    List.Forall₂ (fun item => Client.Started (.dialogue cl.screens.length)
      (.dialogues <$> DialogueService.uploadDialogue item)) s.uploads calls

/-- What an event of the form is for the client, whose `i`-th register tap on this screen is at
`clock i`. -/
def clientEvent (number : ℕ) (clock : ℕ → Timestamp) (s : RegisterDialogueForm) :
    Event → Option Client.Event
  | .didTapRegisterButton => some (.register number (clock s.uploads.length))
  | e => (screenEvent e).map (.onScreen number)

/-- What a run of the form is for the client. -/
def clientEvents (number : ℕ) (clock : ℕ → Timestamp) (s : RegisterDialogueForm)
    (es : List Event) : List Client.Event :=
  trace (step number) (fun s e => (s.clientEvent number clock e).toList) s es

variable {info : CharacterInfo} {selected : Character}

/-- What the form keeps on its own. -/
structure Opened (info : CharacterInfo) (selected : Character) (s : RegisterDialogueForm) :
    Prop where
  onStack : s.screen.onStack = true
  kind : s.screen.kind = .dialogue (some info) selected

theorem step_opened {number : ℕ} {s s' : RegisterDialogueForm} {e : Event}
    (hs : s.Opened info selected) (h : s.step number e = some s') : s'.Opened info selected := by
  refine ⟨?_, (step_kind h).trans hs.kind⟩
  have hscreen := congrArg Prod.fst (step_screen h)
  dsimp only at hscreen
  rw [hscreen]
  cases screenEvent e with
  | none => exact hs.onStack
  | some e' => exact (s.screen.handle_keeps s.device number e').1.trans hs.onStack

/-- An event that is no register tap hands nothing on. -/
theorem step_uploads_of_screen {number : ℕ} {s s' : RegisterDialogueForm} {e : Event}
    (he : ∀ clock, s.clientEvent number clock e = (screenEvent e).map (.onScreen number))
    (h : s.step number e = some s') : s'.uploads = s.uploads := by
  cases e with
  | didTapRegisterButton => cases he fun _ => 0
  | didTapRecordButton starts =>
    obtain rfl := Option.some.inj h
    exact (didTapRecordButton_eq s number starts).2.2
  | didTapStartButton loads =>
    simp only [step] at h
    split_ifs at h
    obtain rfl := Option.some.inj h
    rfl
  | _ =>
    obtain rfl := Option.some.inj h
    rfl

theorem step_onClient {names : Names} {url : URLParser} {client : ℕ} {b : Backend} {cl cl' : Client}
    {clock : ℕ → Timestamp} {s s' : RegisterDialogueForm} {e : Event} (h : s.OnClient cl cl')
    (hs : s.Opened info selected) (hstep : s.step cl.screens.length e = some s') :
    ∃ cl'', run (fun p e => Client.step names url client p.1 p.2 e) (b, cl')
        (s.clientEvent cl.screens.length clock e).toList = some (b, cl'') ∧
      s'.OnClient cl cl'' := by
  obtain ⟨calls, htop, hstarted⟩ := h
  have hscreen := step_screen hstep
  by_cases htap : e = .didTapRegisterButton
  · subst htap
    obtain rfl := Option.some.inj hstep
    obtain ⟨cl'', call, hclient, htop', hcall⟩ :=
      htop.registerDialogue hs.onStack hs.kind (clock s.uploads.length)
    refine ⟨cl'', run_cons_eq_some.2 ⟨_, hclient, rfl⟩, calls ++ [call], htop', ?_⟩
    rw [didTapRegisterButton, dialogueItem, hs.kind]
    exact List.rel_append hstarted (.cons hcall .nil)
  · have hevent : ∀ clock,
        s.clientEvent cl.screens.length clock e =
          (screenEvent e).map (.onScreen cl.screens.length) := by
      intro clock
      cases e with
      | didTapRegisterButton => exact absurd rfl htap
      | _ => rfl
    rw [hevent clock]
    have huploads := step_uploads_of_screen hevent hstep
    cases hscreenEvent : screenEvent e with
    | none =>
      rw [hscreenEvent] at hscreen
      obtain ⟨hsame, hdevice⟩ := Prod.mk.inj hscreen
      refine ⟨cl', rfl, calls, ?_, ?_⟩
      · rw [hsame, hdevice]
        exact htop
      · rw [huploads]
        exact hstarted
    | some e' =>
      rw [hscreenEvent] at hscreen
      obtain ⟨cl'', hclient, htop'⟩ := htop.onScreen hs.onStack e' hscreen.symm
      refine ⟨cl'', run_cons_eq_some.2 ⟨_, hclient, rfl⟩, calls, htop', ?_⟩
      rw [huploads]
      exact hstarted

end RegisterDialogueForm

namespace World

/-- The same for the form for a further line, opened by the button for a further line while a
character is selected. -/
theorem dialogueFormOnClient (names : Names) (url : URLParser) (client : ℕ)
    (clock : ℕ → Timestamp) (w : World) (es : List RegisterDialogueForm.Event)
    (s : RegisterDialogueForm) (selected : Character) (imageUrl : URL)
    (hbutton : (w.parts client).create.addDialogueButtonHidden = false)
    (hselected : (w.parts client).create.selectedCharacter = some selected)
    (hurl : url.parse selected.imageUrl = some imageUrl)
    (hrun : Runs.run (RegisterDialogueForm.step (w.parts client).screens.length)
      (RegisterDialogueForm.new (w.parts client).device
        ⟨selected.characterID, imageUrl, selected.character⟩ selected) es = some s) :
    ∃ cl', run names url w ((.didTapAddDialogueButton :: RegisterDialogueForm.clientEvents
          (w.parts client).screens.length clock (RegisterDialogueForm.new (w.parts client).device
            ⟨selected.characterID, imageUrl, selected.character⟩ selected) es).map
            (client, ·)) = some ⟨w.shared, Function.update w.parts client cl'⟩ ∧
      s.OnClient (w.parts client) cl' := by
  obtain ⟨cl₀, htap, hopen⟩ : ∃ cl₀,
      (w.parts client).step names url client w.shared .didTapAddDialogueButton =
        some (w.shared, cl₀) ∧
      (RegisterDialogueForm.new (w.parts client).device
        ⟨selected.characterID, imageUrl, selected.character⟩ selected).OnClient
          (w.parts client) cl₀ := by
    refine ⟨{ w.parts client with screens := (w.parts client).screens ++ [RegisterScreen.new
      (.dialogue (some ⟨selected.characterID, imageUrl, selected.character⟩) selected)] }, ?_,
      [], ⟨rfl, rfl, rfl, (List.append_nil _).symm⟩, .nil⟩
    simp [Client.step, hbutton, Client.didTapAddDialogueButton, hselected, hurl]
  obtain ⟨cl', hworld, -, hform⟩ :=
    run_screen names url client w
      (fun s e => (s.clientEvent (w.parts client).screens.length clock e).toList)
      .didTapAddDialogueButton
      (R := fun s cl => s.Opened ⟨selected.characterID, imageUrl, selected.character⟩ selected ∧
        s.OnClient (w.parts client) cl) htap ⟨⟨rfl, rfl⟩, hopen⟩ (fun s cl e s' hR hstep => by
        obtain ⟨cl'', hclient, hform⟩ := RegisterDialogueForm.step_onClient hR.2 hR.1 hstep
        exact ⟨cl'', hclient, RegisterDialogueForm.step_opened hR.1 hstep, hform⟩) hrun
  exact ⟨cl', hworld, hform⟩

theorem dialogueFormOnClient_sample :
    ∃ (w : World) (s : RegisterDialogueForm) (cl' : Client),
      run Names.letters URLParser.nonempty (init fun _ => .new "documents") registerCharacter = some w ∧
      s.uploads.length = 2 ∧ s.OnClient (w.parts 0) cl' := by
  have hrun : ∃ w selected imageUrl s,
      run Names.letters URLParser.nonempty (init fun _ => .new "documents") registerCharacter = some w ∧
      (w.parts 0).create.addDialogueButtonHidden = false ∧
      (w.parts 0).create.selectedCharacter = some selected ∧
      URLParser.nonempty.parse selected.imageUrl = some imageUrl ∧
      Runs.run (RegisterDialogueForm.step (w.parts 0).screens.length)
        (RegisterDialogueForm.new (w.parts 0).device
          ⟨selected.characterID, imageUrl, selected.character⟩ selected)
        RegisterDialogueForm.recordTwice = some s ∧ s.uploads.length = 2 :=
    ⟨_, _, _, _, rfl, rfl, rfl, rfl, rfl, rfl⟩
  obtain ⟨w, selected, imageUrl, s, hrun, hbutton, hselected, hurl, hform, htwo⟩ := hrun
  obtain ⟨cl', -, hclient⟩ := dialogueFormOnClient Names.letters URLParser.nonempty 0 (fun _ => 0) w
    _ s selected imageUrl hbutton hselected hurl hform
  exact ⟨w, s, cl', hrun, htwo, hclient⟩

end World

end DialogueApp
