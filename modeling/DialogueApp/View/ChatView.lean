import DialogueApp.View.TopViewModel

/-!
# The chat view

`ChatView` announces one item for each line of its conversation and asks its view model for the
item's text and picture.  An array access out of range is a trap, `none`.
-/

namespace DialogueApp

/-- What the chat screen hands to its view. -/
structure Chat where
  conversation : Conversation
  color : ChatViewColors

/-- `ChatViewModel`, for one item. -/
structure ChatViewModel where
  chat : Chat
  cellNumber : ℕ

namespace ChatViewModel

/-- `imageUrl`, which may be no URL without a trap. -/
def imageUrl (url : URLParser) (viewModel : ChatViewModel) : Option (Option URL) :=
  viewModel.chat.conversation.caracterImageUrls[viewModel.cellNumber]?.map url.parse

/-- `dialogue`; `none` is the trap of its array access. -/
def dialogue (viewModel : ChatViewModel) : Option String :=
  viewModel.chat.conversation.dialogs[viewModel.cellNumber]?

/-- `textColor` -/
def textColor (viewModel : ChatViewModel) : CellColorType := viewModel.chat.color.mainColor

end ChatViewModel

/-- What a cell shows. -/
structure ChatViewCell where
  iconBackgroundColor : CellColorType
  text : String
  textColor : CellColorType
  icon : Option URL

/-- `ChatViewCell.configureViewModel()` -/
def ChatViewCell.configureViewModel (url : URLParser) (viewModel : ChatViewModel) :
    Option ChatViewCell := do
  let text ← viewModel.dialogue
  let icon ← viewModel.imageUrl url
  return { iconBackgroundColor := viewModel.textColor, text, textColor := viewModel.textColor, icon }

/-- `ChatView`, by what it shows. -/
structure ChatView where
  chat : Option Chat

namespace ChatView

/-- `chat?.conversation.dialogs.count ?? 0` -/
def numberOfItemsInSection (view : ChatView) : ℕ :=
  (view.chat.map fun chat => chat.conversation.dialogs.length).getD 0

/-- `cellForItemAt`; a cell without a chat stays as it was dequeued. -/
def cellForItemAt (url : URLParser) (view : ChatView) (row : ℕ) : Option (Option ChatViewCell) :=
  match view.chat with
  | none => some none
  | some chat => some <$> ChatViewCell.configureViewModel url { chat, cellNumber := row }

/-- `sizeForItemAt`, by the text whose size it takes. -/
def sizeForItemAt (view : ChatView) (row : ℕ) : Option (Option String) :=
  match view.chat with
  | none => some none
  | some chat => some <$> chat.conversation.dialogs[row]?

/-- Make and measure every item the view announces. -/
def render (url : URLParser) (view : ChatView) :
    Option (List (Option String × Option ChatViewCell)) :=
  (List.range view.numberOfItemsInSection).mapM fun row => do
    let size ← view.sizeForItemAt row
    let cell ← view.cellForItemAt url row
    return (size, cell)

end ChatView

end DialogueApp
