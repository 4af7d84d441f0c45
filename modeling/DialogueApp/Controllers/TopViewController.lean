import DialogueApp.Controllers.ChatPlayer

/-!
# The top screen

`TopViewController` with its search field.  The table keeps the cells it has made since its last
`reloadData`; a cell that UIKit makes later, while scrolling, is made from the same two lists, since
every function that assigns one of them reloads the table.

`contains` is `String.contains`, which compares by canonical equivalence and treats the empty string
differently from one version to the next; nothing here depends on how it answers.
-/

namespace DialogueApp

/-- What a tap on a start button does. -/
inductive StartTap
  | ignored
  /-- An array index is out of range, or a clip of the conversation has no URL. -/
  | trapped
  | presents (vc : ChatPlayer)

/-- `TopViewController` with its table and its search field. -/
structure TopViewController where
  conversations : List Conversation
  searchedConversations : List Conversation
  /-- The cells of `tableView`, row by row; `none` where `cellForRowAt` has trapped. -/
  cells : List (Option TopViewModel)
  /-- The text of the search field. -/
  searchText : String

namespace TopViewController

/-- The screen as it is launched. -/
def new : TopViewController where
  conversations := []
  searchedConversations := []
  cells := []
  searchText := ""

/-- `numberOfRowsInSection`: all conversations while no search has found one. -/
def numberOfRowsInSection (s : TopViewController) : ℕ :=
  if s.searchedConversations.length = 0 then s.conversations.length
  else s.searchedConversations.length

/-- `cellForRowAt`; `none` is the trap of its array access. -/
def cellForRowAt (s : TopViewController) (row : ℕ) : Option TopViewModel :=
  let conversation :=
    if s.searchedConversations.length = 0 then s.conversations[row]?
    else s.searchedConversations[row]?
  conversation.map fun conversation => { conversation, cellNumber := row }

/-- `tableView.reloadData()` -/
def reloadData (s : TopViewController) : TopViewController :=
  { s with cells := (List.range s.numberOfRowsInSection).map s.cellForRowAt }

/-- The completion of `fetchConversations()`. -/
def fetchConversations (s : TopViewController) (conversations : List Conversation) :
    TopViewController :=
  { s with conversations }.reloadData

/-- Assign `searchedConversations`; its `didSet` reloads the table. -/
def setSearchedConversations (s : TopViewController) (searchedConversations : List Conversation) :
    TopViewController :=
  { s with searchedConversations }.reloadData

/-- `didChangeText(text:)` -/
def didChangeText (contains : String → String → Bool) (s : TopViewController) (text : String) :
    TopViewController :=
  let s := s.setSearchedConversations []
  s.setSearchedConversations (s.conversations.filter fun c => contains c.title text)

/-- `didTapStartButton(cell:)` on a cell with this view model. -/
def didTapStartButton (url : URLParser) (s : TopViewController) (viewModel : TopViewModel) :
    StartTap :=
  match s.cells[viewModel.cellNumber]? with
  | none => .ignored
  | some _ =>
    match s.conversations[viewModel.cellNumber]? with
    | none => .trapped
    | some conversation =>
      match ChatPlayer.init url conversation viewModel.chatViewColors with
      | none => .trapped
      | some vc => .presents vc

/-- A range of the search field's text, with the text around it. -/
structure TextRange where
  before : String
  inside : String
  after : String

/-- `searchBar(_:shouldChangeTextIn:replacementText:)`, which tells the delegate of the replacement
and lets the search field change its text. -/
def shouldChangeTextIn (contains : String → String → Bool) (s : TopViewController)
    (range : TextRange) (text : String) : TopViewController :=
  { s.didChangeText contains text with searchText := range.before ++ text ++ range.after }

/-- What happens on the screen, taps on the start buttons apart. -/
inductive Event
  | fetchConversations (conversations : List Conversation)
  | edit (range : TextRange) (text : String)
  | didCancel

/-- One event.  An edit replaces a range of the text that is there; `didCancel` only ends editing. -/
def step (contains : String → String → Bool) (s : TopViewController) :
    Event → Option TopViewController
  | .fetchConversations conversations => some (s.fetchConversations conversations)
  | .edit range text =>
    if s.searchText = range.before ++ range.inside ++ range.after then
      some (s.shouldChangeTextIn contains range text)
    else none
  | .didCancel => some s

end TopViewController

end DialogueApp
