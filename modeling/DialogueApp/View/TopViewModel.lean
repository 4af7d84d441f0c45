import DialogueApp.API.Services

/-!
# The rows of the top screen and their colours

What a row of the top screen shows, and the colours that it hands on to the chat screen.
-/

namespace DialogueApp

/-- `TopViewModel`, for one row. -/
structure TopViewModel where
  conversation : Conversation
  cellNumber : ℕ
  deriving DecidableEq

/-- `returnCellColor()` and `returnChatViewColor()`, by the colour type whose colour they give. -/
def TopViewModel.returnCellColor (viewModel : TopViewModel) : CellColorType :=
  match viewModel.conversation.color with
  | "pink" => .pink
  | "yellow" => .yellow
  | "green" => .green
  | "blue" => .blue
  | "orange" => .orange
  | "purple" => .purple
  | _ => .pink

/-- The colours of the chat screen. -/
structure ChatViewColors where
  topColor : CellColorType
  mainColor : CellColorType

/-- The colours of the chat screen that a tap on the row opens. -/
def TopViewModel.chatViewColors (viewModel : TopViewModel) : ChatViewColors where
  topColor := viewModel.returnCellColor
  mainColor := viewModel.returnCellColor

end DialogueApp
