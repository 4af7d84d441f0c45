import DialogueApp.API.Services

/-!
# Registering a conversation

`didTapRegisterButton` reads the title, the lines and the pictures at the tap and starts the
animation; the sound files are read in the animation's completion, from the controller as it is
then.
-/

namespace DialogueApp.CreateChatController

open Program

/-- `uploadConversation(title:members:dialogues:)`, from the animation on.  Its completion stands for
`self.completion?(true)`. -/
def uploadConversation (title : String) (members dialogues : List String) : Program Unit := do
  let self ← animate
  let conversationInfo : ConversationInfo :=
    { conversations := self.selectedAudiosUrlStrings, members, dialogues, title }
  let error ← ChatService.uploadConversation conversationInfo
  if error then Chain.stop else return ()

/-- `didTapRegisterButton()`: the controller after the tap and the upload the tap starts. -/
def didTapRegisterButton (c : CreateChatController) : CreateChatController × Program Unit :=
  let title := c.titleText
  let dialogues := c.bottomDialogues.map (·.dialogue)
  let members := c.bottomDialogues.map (·.imageUrl)
  (c.endKeyboard, uploadConversation title members dialogues)

/-- What a register tap stores, when the animation ends with the controller `self` at the moment
`m'`. -/
def registeredData (c self : CreateChatController) (m' : Moment) : Dictionary :=
  ChatService.conversationData
    { conversations := self.selectedAudiosUrlStrings
      members := c.bottomDialogues.map (·.imageUrl)
      dialogues := c.bottomDialogues.map (·.dialogue)
      title := c.titleText }
    m'.now (ChatService.returnCellColor m'.colorNumber).1

/-- The upload of a register tap on `c`, once its animation has ended with `p`. -/
def writing (c : CreateChatController) (p : CreateChatController × Moment) : Running Unit :=
  .call (.setData .conversations p.2.documentID (c.registeredData p.1 p.2)) fun q =>
    if q.1 then .stop else .done ((), q.2)

/-- The upload of a register tap waits for the animation and then writes one document. -/
theorem didTapRegisterButton_run (c : CreateChatController) (m : Moment) :
    c.didTapRegisterButton.2.run m = .call .animate c.writing := by
  show Async.call _ _ = _
  congr 1
  funext p
  show Async.call _ _ = Async.call _ _
  congr 1
  funext q
  obtain ⟨_ | _, m⟩ := q <;> rfl

end DialogueApp.CreateChatController
