import DialogueApp.View.TopViewModel

/-!
# A row of the top screen

`TopCellContents` with the views below it, back to front.  A view has one superview: adding it to
another one, or again to the same, takes it out of where it was.  The base view, the start button
and the title label are made once; each assignment of a view model makes a members view and a stack
view.  Views are objects, so the members views are told apart by the order in which they were made.
-/

namespace DialogueApp

/-- The pictures of the members of a conversation. -/
structure MembersView where
  /-- How many members views the cell had made before. -/
  object : ℕ
  conversation : Conversation
  deriving DecidableEq

namespace MembersView

/-- `numberOfItemsInSection` -/
def numberOfItemsInSection (view : MembersView) : ℕ :=
  view.conversation.topCaracterImageUrls.length

/-- `cellForItemAt`, by the cell's `imageUrl`; `none` is the trap of its array access. -/
def cellForItemAt (view : MembersView) (row : ℕ) : Option String :=
  view.conversation.topCaracterImageUrls[row]?

end MembersView

/-- The views that `configureUI` puts into a stack view. -/
inductive ArrangedView
  | titleLabel
  | membersView (view : MembersView)
  deriving DecidableEq

/-- The views directly below the cell's contents. -/
inductive Subview
  | baseView
  | startButton
  | stackView (arrangedSubviews : List ArrangedView)
  deriving DecidableEq

/-- The members view, if it is one. -/
def ArrangedView.asMembersView : ArrangedView → Option MembersView
  | .titleLabel => none
  | .membersView view => some view

namespace Subview

/-- Take a view out of the stack view it may be in. -/
def remove (view : ArrangedView) : Subview → Subview
  | .stackView arrangedSubviews => .stackView (arrangedSubviews.filter (· ≠ view))
  | subview => subview

/-- The members views in a stack view. -/
def membersViews : Subview → List MembersView
  | .stackView arrangedSubviews => arrangedSubviews.filterMap ArrangedView.asMembersView
  | _ => []

end Subview

/-- `TopCellContents` with the views below it. -/
structure TopCellContents where
  viewModel : Option TopViewModel
  membersView : MembersView
  /-- How many members views have been made. -/
  made : ℕ
  subviews : List Subview
  /-- `baseView.backgroundColor` -/
  baseColor : Option CellColorType
  /-- `titleLabel.text` -/
  titleText : Option String

namespace TopCellContents

/-- A cell as `init(frame:)` leaves it, whose `configureUI` finds no view model.  The first members
view is a lazy property, and nothing reads it before it is replaced. -/
def new (now : Timestamp) : TopCellContents where
  viewModel := none
  membersView := ⟨0, Conversation.init [] now⟩
  made := 1
  subviews := []
  baseColor := none
  titleText := none

/-- `addSubview` of a view that is nowhere, or already a subview: it comes to the front. -/
def addSubview (c : TopCellContents) (view : Subview) : TopCellContents :=
  { c with subviews := c.subviews.filter (· ≠ view) ++ [view] }

/-- `UIStackView(arrangedSubviews:)` takes the views out of the stack views they are in. -/
def removeFromStackViews (c : TopCellContents) (views : List ArrangedView) : TopCellContents :=
  { c with subviews := c.subviews.map fun subview =>
      views.foldl (fun subview view => subview.remove view) subview }

/-- `addSubview` of a view that has just been made. -/
def addNewSubview (c : TopCellContents) (view : Subview) : TopCellContents :=
  { c with subviews := c.subviews ++ [view] }

/-- `configureUI()`, which does nothing without a view model. -/
def configureUI (c : TopCellContents) : TopCellContents :=
  match c.viewModel with
  | none => c
  | some viewModel =>
    let c := c.addSubview .baseView
    let c := { c with baseColor := some viewModel.returnCellColor }
    let c := c.addSubview .startButton
    let c := { c with titleText := some viewModel.conversation.title }
    let arrangedSubviews := [.titleLabel, .membersView c.membersView]
    (c.removeFromStackViews arrangedSubviews).addNewSubview (.stackView arrangedSubviews)

/-- Assign `viewModel`; its `didSet` makes a members view and configures the cell again. -/
def setViewModel (c : TopCellContents) (viewModel : Option TopViewModel) : TopCellContents :=
  let c := { c with viewModel }
  match viewModel with
  | none => c
  | some viewModel =>
    { c with membersView := ⟨c.made, viewModel.conversation⟩, made := c.made + 1 }.configureUI

/-- The members views below the cell's contents, back to front. -/
def membersViews (c : TopCellContents) : List MembersView :=
  c.subviews.flatMap Subview.membersViews

end TopCellContents

end DialogueApp
