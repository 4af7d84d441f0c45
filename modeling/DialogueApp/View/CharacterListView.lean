import DialogueApp.Controllers.CreateChatController

/-!
# The character list

`CharacterListView` with the create screen as its delegate, whose `listCharacters` are the view's
`characters`.  A tap selects an item of the collection view instead of the one before, and
`reloadData()` leaves no item selected; a cell shows its comment view while its item is selected.
-/

namespace DialogueApp

/-- What a cell shows. -/
structure CharacterListCell where
  imageUrl : Option URL
  name : String
  commentViewHidden : Bool
  deriving DecidableEq, Repr

/-- `CharacterListView` with its delegate. -/
structure CharacterListView where
  delegate : CreateChatController
  /-- The item that the collection view has selected. -/
  selectedItem : Option ℕ

namespace CharacterListView

/-- The list when the create screen is first presented. -/
def presented : CharacterListView where
  delegate := .presented
  selectedItem := none

/-- `numberOfItemsInSection` -/
def numberOfItemsInSection (s : CharacterListView) : ℕ := s.delegate.listCharacters.length

/-- `cellForItemAt`, with `isSelected` as the collection view sets it; `none` is the trap of
`characters[indexPath.row]`. -/
def cellForItemAt (url : URLParser) (s : CharacterListView) (item : ℕ) : Option CharacterListCell :=
  s.delegate.listCharacters[item]?.map fun character =>
    { imageUrl := url.parse character.imageUrl
      name := character.character
      commentViewHidden := if s.selectedItem = some item then false else true }

/-- The event assigns `characters`, whose `didSet` reloads the collection view, or reloads it. -/
def reloads : CreateChatController.Event → Bool
  | .fetchCharacters _ => true
  | .updateCharacter _ => true
  | _ => false

/-- The event is the delegate's for a tap on the list. -/
def isSelection : CreateChatController.Event → Bool
  | .selectCharacter _ => true
  | _ => false

/-- What happens to the list. -/
inductive Event
  | didSelectItemAt (item : ℕ)
  /-- An event of the create screen, a tap on the list apart. -/
  | create (e : CreateChatController.Event)

/-- One event; `none` where it cannot happen, or traps. -/
def step (sameName : String → String → Bool) (s : CharacterListView) :
    Event → Option CharacterListView
  | .didSelectItemAt item =>
    s.delegate.listCharacters[item]?.map fun character =>
      { delegate := s.delegate.selectCharacter character, selectedItem := some item }
  | .create e =>
    if isSelection e then none
    else
      (s.delegate.step sameName e).map fun delegate =>
        { delegate, selectedItem := if reloads e then none else s.selectedItem }

end CharacterListView

end DialogueApp
