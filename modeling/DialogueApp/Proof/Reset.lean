import DialogueApp.Proof.LineTable

/-!
# What a reset leaves behind

`defaultUI` is to bring the create screen back to its empty look (`IsReset`).  Its loop blanks the
cells of the selected lines and sits in front of the last four assignments; a row without a cell on
screen returns from the whole function, and the character, its lines, the add-line button and the
hint of the line list stay as they were.

The table has a row for each selected line in every state (`LinesHaveRows`), so what decides is
which rows are on screen.
-/

namespace DialogueApp.CreateChatController

open Runs

variable {sameName : String → String → Bool}

/-- The screen with nothing selected, picked or typed. -/
structure IsReset (c : CreateChatController) : Prop where
  selectedCharacter : c.selectedCharacter = none
  selectedDialogues : c.selectedDialogues = []
  bottomDialogues : c.bottomDialogues = []
  titleText : c.titleText = ""
  registerButton : c.registerButtonHidden = true
  titleTextField : c.titleTextFieldHidden = true
  startButton : c.startButtonHidden = true
  addDialogueButton : c.addDialogueButtonHidden = true
  dialogueListDescription : c.dialogueListDescriptionHidden = false
  bottomChatDescription : c.bottomChatDescriptionHidden = false
  registerDescription : c.registerDescriptionHidden = false

/-- The states of the controller: the new object, or what some events make of the presented
screen. -/
def Reachable (sameName : String → String → Bool) (c : CreateChatController) : Prop :=
  c = new ∨ ∃ es, run (step sameName) presented es = some c

/-- Each selected line has a row in the table. -/
def LinesHaveRows (c : CreateChatController) : Prop := c.selectedDialogues.length ≤ c.tableRows

/-! ## The rows of the selected lines -/

/-- A reset may drop the lines and leaves the rows. -/
theorem defaultUI_linesHaveRows {c : CreateChatController} (hc : c.LinesHaveRows)
    (onScreen : ℕ → Bool) : (c.defaultUI onScreen).LinesHaveRows := by
  unfold LinesHaveRows at hc ⊢
  rw [defaultUI_selectedDialogues, defaultUI_tableRows]
  split_ifs
  · simp
  · exact hc

theorem step_linesHaveRows (c : CreateChatController) (e : Event) (c' : CreateChatController)
    (hc : c.LinesHaveRows) (h : c.step sameName e = some c') : c'.LinesHaveRows := by
  cases e with
  | defaultUI onScreen =>
    obtain rfl := Option.some.inj h
    exact defaultUI_linesHaveRows hc onScreen
  | didSelectRow row =>
    obtain ⟨dialogue, -, -, rfl⟩ := step_didSelectRow h
    simpa [LinesHaveRows] using hc
  | didTapRegisterButton =>
    obtain ⟨-, rfl⟩ := step_didTapRegisterButton h
    exact hc
  | selectCharacter character | updateCharacter newInfo | addedDialogue dialogues selected =>
    -- the writers that reload
    obtain rfl := Option.some.inj h
    exact Nat.le_refl _
  | _ =>
    obtain rfl := Option.some.inj h
    exact hc

theorem linesHaveRows_presented : presented.LinesHaveRows := Nat.le_refl 0

theorem Reachable.linesHaveRows {c : CreateChatController} (hc : c.Reachable sameName) :
    c.LinesHaveRows := by
  obtain rfl | ⟨es, hrun⟩ := hc
  · exact Nat.le_refl _
  · exact run_invariant step_linesHaveRows linesHaveRows_presented hrun

/-! ## The reset -/

/-- The loop that runs to its end is followed by the last assignments. -/
theorem defaultUI_isReset_of_clearsEveryRow {c : CreateChatController} {onScreen : ℕ → Bool}
    (h : c.clearsEveryRow onScreen = true) : (c.defaultUI onScreen).IsReset := by
  unfold defaultUI
  dsimp only
  rw [clearsEveryRow_congr (c := c) (by simp) (by simp), if_pos h]
  constructor <;> rfl

/-- The loop has a row, so the lines are not empty, and they stay when it is left. -/
theorem clearsEveryRow_of_selectedDialogues {c : CreateChatController} {onScreen : ℕ → Bool}
    (h : (c.defaultUI onScreen).selectedDialogues = []) : c.clearsEveryRow onScreen = true := by
  rw [defaultUI_selectedDialogues] at h
  by_contra hleaves
  rw [if_neg hleaves] at h
  rw [clearsEveryRow, h] at hleaves
  exact hleaves rfl

theorem defaultUI_isReset_iff {c : CreateChatController} {onScreen : ℕ → Bool} :
    (c.defaultUI onScreen).IsReset ↔ c.clearsEveryRow onScreen = true :=
  ⟨fun h => clearsEveryRow_of_selectedDialogues h.selectedDialogues,
    defaultUI_isReset_of_clearsEveryRow⟩

/-- In every state of the screen, a reset is complete exactly when every row of a selected line is
on screen. -/
theorem resetIsComplete_iff {c : CreateChatController} (hc : c.Reachable sameName)
    (onScreen : ℕ → Bool) :
    (c.defaultUI onScreen).IsReset ↔
      ∀ row < c.selectedDialogues.length, onScreen row = true := by
  rw [defaultUI_isReset_iff]
  exact clearsEveryRow_iff hc.linesHaveRows

/-- Select a character with two lines. -/
def selectTwoLines : List Event :=
  [.fetchDialogues [⟨"Hello", "audio", 0, "hello", "Anna", "image", "anna"⟩,
     ⟨"Bye", "audio", 0, "bye", "Anna", "image", "anna"⟩],
   .selectCharacter ⟨"Anna", "image", 0, "anna"⟩]

theorem resetIsComplete_iff_selectTwoLines :
    ∃ c, run (step (· == ·)) presented selectTwoLines = some c ∧ c.selectedDialogues.length = 2 ∧
      ((c.defaultUI fun _ => true).IsReset ↔
        ∀ row < c.selectedDialogues.length, (fun _ => true) row = true) := by
  have hrun : ∃ c, run (step (· == ·)) presented selectTwoLines = some c ∧
      c.selectedDialogues.length = 2 := ⟨_, rfl, rfl⟩
  obtain ⟨c, hrun, htwo⟩ := hrun
  exact ⟨c, hrun, htwo, resetIsComplete_iff (Or.inr ⟨selectTwoLines, hrun⟩) fun _ => true⟩

/-- With the second row scrolled off the screen the character stays selected. -/
theorem not_isReset_selectTwoLines :
    ∃ c, run (step (· == ·)) presented selectTwoLines = some c ∧
      ¬ (c.defaultUI fun row => row == 0).IsReset ∧
      ((c.defaultUI fun row => row == 0).selectedCharacter).isSome = true := by
  refine ⟨_, rfl, fun h => ?_, rfl⟩
  cases h.selectedCharacter

end DialogueApp.CreateChatController
