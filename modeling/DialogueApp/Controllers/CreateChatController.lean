import DialogueApp.Lib.Runs
import DialogueApp.Model.Documents

/-!
# The create screen

`CreateChatController` with its subviews' data: the character list, the line table
(`dialogueListView`), the picked lines (`conversationBottomView`), the title field and the `isHidden`
flags.  One controller object serves every presentation of the screen.

Of the line table only what UIKit remembers is state: `tableRows`, the number of rows since its last
`reloadData`.  Which rows are on screen is up to the user, so `defaultUI` takes it as an argument.
`updateCharacter` compares names, which are texts that were typed; `sameName` is `==` on these, which
for Swift's `String` is canonical equivalence.  Ids are drawn by Firestore from letters and digits, on
which `==` is equality.
-/

namespace DialogueApp

/-- `CreateChatController` with the data of its subviews. -/
structure CreateChatController where
  characters : List Character
  dialogues : List Dialogue
  selectedDialogues : List Dialogue
  selectedCharacter : Option Character
  /-- `characterListView.characters` -/
  listCharacters : List Character
  /-- `conversationBottomView.dialogues` -/
  bottomDialogues : List Dialogue
  /-- The rows of `dialogueListView` since its last `reloadData`. -/
  tableRows : ℕ
  /-- `titleTextField.text` -/
  titleText : String
  registerButtonHidden : Bool
  titleTextFieldHidden : Bool
  startButtonHidden : Bool
  addDialogueButtonHidden : Bool
  dialogueListDescriptionHidden : Bool
  bottomChatDescriptionHidden : Bool
  registerDescriptionHidden : Bool
  keyboardFrameHeight : Rat
  /-- `view.frame.origin.y` -/
  originY : Rat

namespace CreateChatController

/-- The object as its property initialisers leave it. -/
def new : CreateChatController where
  characters := []
  dialogues := []
  selectedDialogues := []
  selectedCharacter := none
  listCharacters := []
  bottomDialogues := []
  tableRows := 0
  titleText := ""
  registerButtonHidden := false
  titleTextFieldHidden := true
  startButtonHidden := false
  addDialogueButtonHidden := false
  dialogueListDescriptionHidden := false
  bottomChatDescriptionHidden := false
  registerDescriptionHidden := false
  keyboardFrameHeight := 0
  originY := 0

/-! ## The subviews -/

/-- `dialogueListView.reloadData()`, which asks `numberOfRowsInSection`. -/
def reloadData (c : CreateChatController) : CreateChatController :=
  { c with tableRows := c.selectedDialogues.length }

/-- `dialogueListView.cellForRow(at:)` is not `nil`: the row exists and is on screen. -/
def cellForRow (c : CreateChatController) (onScreen : ℕ → Bool) (row : ℕ) : Bool :=
  decide (row < c.tableRows) && onScreen row

/-- `BottomChatViewDelegate.moreThanTwoConversations` -/
def moreThanTwoConversations (c : CreateChatController) : CreateChatController :=
  { c with registerDescriptionHidden := true, registerButtonHidden := false,
           titleTextFieldHidden := false }

/-- Assign `conversationBottomView.dialogues`; its `didSet` tells the delegate of two or more. -/
def setBottomDialogues (c : CreateChatController) (dialogues : List Dialogue) :
    CreateChatController :=
  let c := { c with bottomDialogues := dialogues }
  if dialogues.length ≥ 2 then c.moreThanTwoConversations else c

/-! ## The controller's functions -/

/-- `configureUI()`, by the views it hides. -/
def configureUI (c : CreateChatController) : CreateChatController :=
  { c with registerButtonHidden := true, addDialogueButtonHidden := true,
           startButtonHidden := true }

/-- The completion of `fetchCharacters`: the character list view's array is appended to. -/
def fetchCharacters (c : CreateChatController) (characters : List Character) :
    CreateChatController :=
  { c with characters := characters, listCharacters := c.listCharacters ++ characters }

/-- The completion of `fetchDialogues`. -/
def fetchDialogues (c : CreateChatController) (dialogues : List Dialogue) : CreateChatController :=
  { c with dialogues := dialogues }

/-- `updateDialogues(character:)` -/
def updateDialogues (c : CreateChatController) (character : Character) : CreateChatController :=
  { c with selectedDialogues := c.dialogues.filter (·.characterID == character.characterID) }
    |>.reloadData

/-- `updateCharacter(newInfo:)`, with `==` on names: each line with the first character's name
replaces the selection, so the last such line stays, or the old lines where there is none. -/
def updateCharacter (sameName : String → String → Bool) (c : CreateChatController)
    (newInfo : NewInfo) : CreateChatController :=
  let first : Option Character := newInfo.characters.head?
  { c with
    listCharacters := newInfo.characters
    characters := newInfo.characters
    dialogues := newInfo.dialogues
    selectedDialogues := newInfo.dialogues.foldl
      (fun selected (dialogue : Dialogue) =>
        if first.any (fun character : Character => sameName dialogue.character character.character)
        then [dialogue] else selected)
      c.selectedDialogues
    selectedCharacter := first
    addDialogueButtonHidden := false
    dialogueListDescriptionHidden := true } |>.reloadData

/-- `selectCharacter(character:)`.  The loop at its end only shows the borders of cells. -/
def selectCharacter (c : CreateChatController) (character : Character) : CreateChatController :=
  let c := { c with selectedCharacter := some character }.updateDialogues character
  { c with dialogueListDescriptionHidden := true, addDialogueButtonHidden := false }

/-- `didSelectRowAt`; `none` is the trap of `selectedDialogues[indexPath.row]`. -/
def didSelectRowAt (c : CreateChatController) (row : ℕ) : Option CreateChatController :=
  c.selectedDialogues[row]?.map fun dialogue =>
    { c.setBottomDialogues (c.bottomDialogues ++ [dialogue]) with
      bottomChatDescriptionHidden := true, startButtonHidden := false }

/-- The loop of `defaultUI` over the rows runs to its end: a row without a cell leaves the whole
function. -/
def clearsEveryRow (c : CreateChatController) (onScreen : ℕ → Bool) : Bool :=
  (List.range c.selectedDialogues.length).all (c.cellForRow onScreen)

/-- `defaultUI()`, whose loop may leave the function early. -/
def defaultUI (c : CreateChatController) (onScreen : ℕ → Bool) : CreateChatController :=
  let c := { c with bottomChatDescriptionHidden := false, startButtonHidden := true }
  let c := c.setBottomDialogues []
  let c := { c with registerDescriptionHidden := false, registerButtonHidden := true,
                    titleTextFieldHidden := true, titleText := "" }
  if c.clearsEveryRow onScreen then
    { c with dialogueListDescriptionHidden := false, addDialogueButtonHidden := true,
             selectedCharacter := none, selectedDialogues := [] }
  else c

/-- The completion handed to `RegisterDialogueController` by `didTapAddDialogueButton`, which has
captured the character selected at the tap. -/
def addedDialogue (c : CreateChatController) (dialogues : List Dialogue) (selected : Character) :
    CreateChatController :=
  { c with dialogues := dialogues }.updateDialogues selected

/-- `showKeyboard(notification:)` for a keyboard of this height. -/
def showKeyboard (c : CreateChatController) (height : Rat) : CreateChatController :=
  { c with keyboardFrameHeight := height, originY := c.originY - height }

/-- The animation block of `uploadConversation`, which runs at the register tap. -/
def endKeyboard (c : CreateChatController) : CreateChatController :=
  { c with originY := c.originY + c.keyboardFrameHeight }

/-- The `audioUrl` of each picked line, as `uploadConversation` collects them. -/
def selectedAudiosUrlStrings (c : CreateChatController) : List String :=
  c.bottomDialogues.map (·.audioUrl)

/-! ## Events -/

/-- What happens on the screen.  The upload that a register tap starts is not part of the screen. -/
inductive Event
  | fetchCharacters (characters : List Character)
  | fetchDialogues (dialogues : List Dialogue)
  | selectCharacter (character : Character)
  | didSelectRow (row : ℕ)
  | defaultUI (onScreen : ℕ → Bool)
  | updateCharacter (newInfo : NewInfo)
  | addedDialogue (dialogues : List Dialogue) (selected : Character)
  | editTitle (text : String)
  | showKeyboard (height : Rat)
  | didTapRegisterButton

/-- One event.  A tap on a row is delivered for the rows the table has; it may trap.  A hidden
button gets no tap. -/
def step (sameName : String → String → Bool) (c : CreateChatController) :
    Event → Option CreateChatController
  | .fetchCharacters characters => some (c.fetchCharacters characters)
  | .fetchDialogues dialogues => some (c.fetchDialogues dialogues)
  | .selectCharacter character => some (c.selectCharacter character)
  | .didSelectRow row => if row < c.tableRows then c.didSelectRowAt row else none
  | .defaultUI onScreen => some (c.defaultUI onScreen)
  | .updateCharacter newInfo => some (c.updateCharacter sameName newInfo)
  | .addedDialogue dialogues selected => some (c.addedDialogue dialogues selected)
  | .editTitle text => some { c with titleText := text }
  | .showKeyboard height => some (c.showKeyboard height)
  | .didTapRegisterButton => if c.registerButtonHidden then none else some c.endKeyboard

/-- The screen as `didTapCreateButton` first presents it: `defaultUI` runs before the view is
loaded, `viewDidLoad` after it. -/
def presented : CreateChatController := (new.defaultUI fun _ => false).configureUI

/-! ## What the functions change -/

variable {sameName : String → String → Bool}

@[simp] theorem setBottomDialogues_bottomDialogues (c : CreateChatController)
    (dialogues : List Dialogue) : (c.setBottomDialogues dialogues).bottomDialogues = dialogues := by
  unfold setBottomDialogues
  split_ifs <;> rfl

@[simp] theorem setBottomDialogues_registerButtonHidden (c : CreateChatController)
    (dialogues : List Dialogue) :
    (c.setBottomDialogues dialogues).registerButtonHidden =
      (decide (dialogues.length < 2) && c.registerButtonHidden) := by
  unfold setBottomDialogues
  split_ifs with h
  · simp only [moreThanTwoConversations, show ¬ dialogues.length < 2 by omega, decide_false,
      Bool.false_and]
  · simp only [show dialogues.length < 2 by omega, decide_true, Bool.true_and]

@[simp] theorem setBottomDialogues_selectedDialogues (c : CreateChatController)
    (dialogues : List Dialogue) :
    (c.setBottomDialogues dialogues).selectedDialogues = c.selectedDialogues := by
  unfold setBottomDialogues
  split_ifs <;> rfl

@[simp] theorem setBottomDialogues_tableRows (c : CreateChatController)
    (dialogues : List Dialogue) : (c.setBottomDialogues dialogues).tableRows = c.tableRows := by
  unfold setBottomDialogues
  split_ifs <;> rfl

@[simp] theorem setBottomDialogues_selectedCharacter (c : CreateChatController)
    (dialogues : List Dialogue) :
    (c.setBottomDialogues dialogues).selectedCharacter = c.selectedCharacter := by
  unfold setBottomDialogues
  split_ifs <;> rfl

@[simp] theorem setBottomDialogues_dialogues (c : CreateChatController)
    (dialogues : List Dialogue) : (c.setBottomDialogues dialogues).dialogues = c.dialogues := by
  unfold setBottomDialogues
  split_ifs <;> rfl

@[simp] theorem defaultUI_bottomDialogues (c : CreateChatController) (onScreen : ℕ → Bool) :
    (c.defaultUI onScreen).bottomDialogues = [] := by
  unfold defaultUI
  dsimp only
  split_ifs <;> simp

@[simp] theorem defaultUI_registerButtonHidden (c : CreateChatController) (onScreen : ℕ → Bool) :
    (c.defaultUI onScreen).registerButtonHidden = true := by
  unfold defaultUI
  dsimp only
  split_ifs <;> rfl

/-- A delivered row tap picks a line of the selected ones. -/
theorem step_didSelectRow {c c' : CreateChatController} {row : ℕ}
    (h : c.step sameName (.didSelectRow row) = some c') :
    ∃ dialogue, row < c.tableRows ∧ c.selectedDialogues[row]? = some dialogue ∧
      c' = { c.setBottomDialogues (c.bottomDialogues ++ [dialogue]) with
        bottomChatDescriptionHidden := true, startButtonHidden := false } := by
  simp only [step] at h
  split_ifs at h with hrow
  obtain ⟨dialogue, hd, rfl⟩ := Option.map_eq_some_iff.1 h
  exact ⟨dialogue, hrow, hd, rfl⟩

/-- A delivered register tap only moves the view. -/
theorem step_didTapRegisterButton {c c' : CreateChatController}
    (h : c.step sameName .didTapRegisterButton = some c') :
    c.registerButtonHidden = false ∧ c' = c.endKeyboard := by
  simp only [step] at h
  split_ifs at h with hhidden
  exact ⟨Bool.eq_false_iff.2 hhidden, (Option.some.inj h).symm⟩

end CreateChatController

end DialogueApp
