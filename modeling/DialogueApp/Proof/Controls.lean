import DialogueApp.Controllers.CreateChatController

/-!
# The controls of the create screen

Each function of the create screen shows and hides controls on its own.  All the same the controls
below the picked lines are a function of how many there are, and the button for a further line is
shown exactly while the description of the line table is hidden.  That it is shown exactly while a
character is selected needs that no upload of a character comes back with an empty list.
-/

namespace DialogueApp.CreateChatController

open Runs

variable {sameName : String → String → Bool}

/-- The controls below the picked lines go by their number. -/
structure ControlsAgree (c : CreateChatController) : Prop where
  startButton : c.startButtonHidden = c.bottomDialogues.isEmpty
  bottomChatDescription : c.bottomChatDescriptionHidden = !c.bottomDialogues.isEmpty
  registerButton : c.registerButtonHidden = decide (c.bottomDialogues.length < 2)
  titleTextField : c.titleTextFieldHidden = decide (c.bottomDialogues.length < 2)
  registerDescription : c.registerDescriptionHidden = !decide (c.bottomDialogues.length < 2)
  addDialogueButton : c.addDialogueButtonHidden = !c.dialogueListDescriptionHidden

variable {c c' : CreateChatController}

theorem controlsAgree_presented : ControlsAgree presented :=
  ⟨rfl, rfl, rfl, rfl, rfl, rfl⟩

/-- A change of neither the picked lines nor the controls. -/
theorem ControlsAgree.same (h : c.ControlsAgree) (hbottom : c'.bottomDialogues = c.bottomDialogues)
    (hstart : c'.startButtonHidden = c.startButtonHidden)
    (hdescription : c'.bottomChatDescriptionHidden = c.bottomChatDescriptionHidden)
    (hregister : c'.registerButtonHidden = c.registerButtonHidden)
    (htitle : c'.titleTextFieldHidden = c.titleTextFieldHidden)
    (hregisterDescription : c'.registerDescriptionHidden = c.registerDescriptionHidden)
    (hadd : c'.addDialogueButtonHidden = !c'.dialogueListDescriptionHidden) :
    c'.ControlsAgree := by
  constructor
  · rw [hstart, hbottom, h.startButton]
  · rw [hdescription, hbottom, h.bottomChatDescription]
  · rw [hregister, hbottom, h.registerButton]
  · rw [htitle, hbottom, h.titleTextField]
  · rw [hregisterDescription, hbottom, h.registerDescription]
  · exact hadd

/-- A picked line shows the start button, and a second one the register button. -/
theorem ControlsAgree.pick (h : c.ControlsAgree) (dialogue : Dialogue) :
    ControlsAgree { c.setBottomDialogues (c.bottomDialogues ++ [dialogue]) with
      bottomChatDescriptionHidden := true, startButtonHidden := false } := by
  have hlength : (c.bottomDialogues ++ [dialogue]).length = c.bottomDialogues.length + 1 := by
    simp
  have hsome : (c.bottomDialogues ++ [dialogue]).isEmpty = false := by simp
  unfold setBottomDialogues
  split_ifs with htwo
  · have hfew : decide ((c.bottomDialogues ++ [dialogue]).length < 2) = false :=
      decide_eq_false (by omega)
    simp only [moreThanTwoConversations]
    exact ⟨hsome.symm, by rw [hsome]; rfl, hfew.symm, hfew.symm, by rw [hfew]; rfl,
      h.addDialogueButton⟩
  · have hfew : decide ((c.bottomDialogues ++ [dialogue]).length < 2) = true :=
      decide_eq_true (by omega)
    have hold : decide (c.bottomDialogues.length < 2) = true := decide_eq_true (by omega)
    refine ⟨hsome.symm, by rw [hsome]; rfl, ?_, ?_, ?_, h.addDialogueButton⟩
    · exact (h.registerButton.trans hold).trans hfew.symm
    · exact (h.titleTextField.trans hold).trans hfew.symm
    · exact (h.registerDescription.trans (by rw [hold])).trans (by rw [hfew])

theorem ControlsAgree.defaultUI (h : c.ControlsAgree) (onScreen : ℕ → Bool) :
    (c.defaultUI onScreen).ControlsAgree := by
  unfold CreateChatController.defaultUI
  dsimp only
  split_ifs
  · exact ⟨rfl, rfl, rfl, rfl, rfl, rfl⟩
  · exact ⟨rfl, rfl, rfl, rfl, rfl, h.addDialogueButton⟩

theorem step_controlsAgree (c : CreateChatController) (e : Event) (c' : CreateChatController)
    (h : c.ControlsAgree) (hstep : c.step sameName e = some c') : c'.ControlsAgree := by
  cases e with
  | didSelectRow row =>
    obtain ⟨dialogue, -, -, rfl⟩ := step_didSelectRow hstep
    exact h.pick dialogue
  | defaultUI onScreen =>
    obtain rfl := Option.some.inj hstep
    exact h.defaultUI onScreen
  | didTapRegisterButton =>
    obtain ⟨-, rfl⟩ := step_didTapRegisterButton hstep
    exact h.same rfl rfl rfl rfl rfl rfl h.addDialogueButton
  | selectCharacter character | updateCharacter newInfo =>
    obtain rfl := Option.some.inj hstep
    exact h.same rfl rfl rfl rfl rfl rfl rfl
  | _ =>
    obtain rfl := Option.some.inj hstep
    exact h.same rfl rfl rfl rfl rfl rfl h.addDialogueButton

theorem run_controlsAgree {es : List Event} (hrun : run (step sameName) presented es = some c) :
    c.ControlsAgree :=
  run_invariant step_controlsAgree controlsAgree_presented hrun

/-! ## The button for a further line -/

/-- The button for a further line is shown exactly while a character is selected. -/
def OffersItsCharacter (c : CreateChatController) : Prop :=
  c.addDialogueButtonHidden = c.selectedCharacter.isNone

/-- The condition on an event: an upload of a character does not come back with an empty list. -/
def BringsCharacters (_ : CreateChatController) : Event → Prop
  | .updateCharacter newInfo => newInfo.characters ≠ []
  | _ => True

theorem defaultUI_offersItsCharacter (h : c.OffersItsCharacter) (onScreen : ℕ → Bool) :
    (c.defaultUI onScreen).OffersItsCharacter := by
  unfold CreateChatController.defaultUI
  dsimp only
  split_ifs
  · rfl
  · exact h

theorem step_offersItsCharacter (c : CreateChatController) (e : Event) (c' : CreateChatController)
    (_ : True) (h : c.OffersItsCharacter) (hstep : c.step sameName e = some c') :
    c'.OffersItsCharacter ↔ c.BringsCharacters e := by
  cases e with
  | updateCharacter newInfo =>
    obtain rfl := Option.some.inj hstep
    show false = newInfo.characters.head?.isNone ↔ newInfo.characters ≠ []
    cases newInfo.characters with
    | nil => simp
    | cons character characters => simp
  | didSelectRow row =>
    obtain ⟨dialogue, -, -, rfl⟩ := step_didSelectRow hstep
    refine iff_of_true ?_ trivial
    unfold OffersItsCharacter setBottomDialogues
    split_ifs
    · exact h
    · exact h
  | defaultUI onScreen =>
    obtain rfl := Option.some.inj hstep
    exact iff_of_true (defaultUI_offersItsCharacter h onScreen) trivial
  | didTapRegisterButton =>
    obtain ⟨-, rfl⟩ := step_didTapRegisterButton hstep
    exact iff_of_true h trivial
  | selectCharacter character =>
    obtain rfl := Option.some.inj hstep
    exact iff_of_true rfl trivial
  | _ =>
    obtain rfl := Option.some.inj hstep
    exact iff_of_true h trivial

/-- In every state of a run the button for a further line is shown exactly while a character is
selected, if and only if no upload of a character in the run comes back with an empty list. -/
theorem offersItsCharacter_iff (sameName : String → String → Bool) (es : List Event) :
    EveryState (step sameName) OffersItsCharacter presented es ↔
      AllSteps (step sameName) BringsCharacters presented es :=
  everyState_iff_allSteps (I := fun _ => True) (fun _ _ _ _ _ => trivial) step_offersItsCharacter
    trivial rfl

end DialogueApp.CreateChatController
