import DialogueApp.Controllers.RegisterScreen

/-!
# The three pages of `RegisterViewController`

A page on screen is shown by a recycled `RegisterCell`, which carries the subviews of all three
pages; its recording view is one of the screen's, by the number of the cell.  `cellForItemAt` gets a
new cell or one that shows no page, with its contents as they were.

When pages come and go is up to the scrolling, so these are events of their own; the callbacks of a
page's subviews come from the cell that shows it, recognition results from any cell.
-/

namespace DialogueApp

/-- `RegisterViewModel`, by the page it is for. -/
structure RegisterViewModel where
  pageNumber : ℕ

namespace RegisterViewModel

/-- The name field is on page 0. -/
def shouldHideName (viewModel : RegisterViewModel) : Bool :=
  viewModel.pageNumber == 1 || viewModel.pageNumber == 2

/-- The picture is on page 1. -/
def shouldHideImage (viewModel : RegisterViewModel) : Bool :=
  viewModel.pageNumber == 0 || viewModel.pageNumber == 2

/-- The name below the picture is on page 1. -/
def shouldHideNameLabel (viewModel : RegisterViewModel) : Bool :=
  viewModel.pageNumber == 0 || viewModel.pageNumber == 2

/-- The recording view is on page 2. -/
def shouldHideAudio (viewModel : RegisterViewModel) : Bool :=
  viewModel.pageNumber == 0 || viewModel.pageNumber == 1

/-- What a page asks for. -/
def instructionText (viewModel : RegisterViewModel) : String :=
  match viewModel.pageNumber with
  | 0 => "名前を入力してください"
  | 1 => "画像を設定してください"
  | 2 => "音声を録音してください"
  | _ => ""

end RegisterViewModel

/-- A cell, its recording view's text and recorder apart. -/
structure RegisterCell where
  viewModel : Option RegisterViewModel
  /-- `instructionLabel.text` -/
  instructionText : Option String
  /-- `nameTextField.text` -/
  nameText : String
  nameTextFieldHidden : Bool
  /-- `none` is the placeholder. -/
  charactorImage : Option UIImage
  charactorImageHidden : Bool
  /-- `nameLabel.text` -/
  nameLabelText : String
  nameLabelHidden : Bool
  recordingViewHidden : Bool
  /-- `recordingView.iconImageView.image` -/
  iconImage : Option UIImage
  /-- `recordingView.userNameLabel.text` -/
  userName : Option String

namespace RegisterCell

/-- A cell that has just been made. -/
def new : RegisterCell where
  viewModel := none
  instructionText := none
  nameText := ""
  nameTextFieldHidden := false
  charactorImage := none
  charactorImageHidden := false
  nameLabelText := "なまえ"
  nameLabelHidden := false
  recordingViewHidden := false
  iconImage := none
  userName := none

/-- Assign `viewModel`; its `didSet` is `configureViewModel()`. -/
def setViewModel (cell : RegisterCell) (viewModel : RegisterViewModel) : RegisterCell :=
  { cell with
    viewModel := some viewModel
    nameTextFieldHidden := viewModel.shouldHideName
    charactorImageHidden := viewModel.shouldHideImage
    nameLabelHidden := viewModel.shouldHideNameLabel
    recordingViewHidden := viewModel.shouldHideAudio
    instructionText := some viewModel.instructionText }

end RegisterCell

/-- `RegisterViewController` with its pages, its bottom buttons apart. -/
structure RegisterForm where
  /-- The controller's own fields and the recording views of its cells. -/
  screen : RegisterScreen
  device : Device
  /-- All cells made so far. -/
  cells : List RegisterCell
  /-- The cell that shows a page. -/
  pageCells : ℕ → Option ℕ
  /-- `pageControl.currentPage` -/
  currentPage : ℕ
  /-- The pages of the timers of `didTapNextButton` that have not fired. -/
  timers : List ℕ
  /-- What `uploadDialogue()` has handed on. -/
  uploads : List CharacterItem

namespace RegisterForm

/-- The controller as it is pushed, before any page is on screen. -/
def new (device : Device) : RegisterForm where
  screen := .new .character
  device := device
  cells := []
  pageCells := fun _ => none
  currentPage := 0
  timers := []
  uploads := []

/-- `collectionView.cellForItem(at:)`, changed by `f` where there is one. -/
def modifyPage (s : RegisterForm) (page : ℕ) (f : RegisterCell → RegisterCell) : RegisterForm :=
  match s.pageCells page with
  | some n => { s with cells := s.cells.modify n f }
  | none => s

/-- `setupNaxtPageUI(_:)`, which copies the fields to a page that is on screen. -/
def setupNaxtPageUI (s : RegisterForm) (pageNumber : ℕ) : RegisterForm :=
  if pageNumber = 1 then
    s.modifyPage pageNumber fun cell => { cell with nameLabelText := s.screen.nameText }
  else if pageNumber = 2 then
    s.modifyPage pageNumber fun cell =>
      { cell with iconImage := some s.screen.selectedImage, userName := some s.screen.nameText }
  else s

/-- `uploadDialogue()` -/
def uploadDialogue (s : RegisterForm) : RegisterForm :=
  let characterItem : CharacterItem :=
    { image := s.screen.selectedImage, audio := s.screen.audioUrl, text := s.screen.audioText
      name := s.screen.nameText }
  { s with uploads := s.uploads ++ [characterItem] }

/-- `didTapPrevButton()` -/
def didTapPrevButton (s : RegisterForm) : RegisterForm :=
  { s with currentPage := s.currentPage - 1 }

/-- `didTapNextButton()`, which uploads from the last page. -/
def didTapNextButton (s : RegisterForm) : RegisterForm :=
  if s.currentPage = 2 then s.uploadDialogue
  else
    let pageNumber := min (s.currentPage + 1) 2
    { s with currentPage := pageNumber, timers := s.timers ++ [pageNumber] }

/-- `scrollViewWillEndDragging`; the page control keeps to its three pages. -/
def scrollViewWillEndDragging (s : RegisterForm) (page : ℕ) : RegisterForm :=
  { s with currentPage := min page 2 }.setupNaxtPageUI page

/-- `imagePickerController(_:didFinishPickingMediaWithInfo:)` with an edited image. -/
def didFinishPicking (s : RegisterForm) (image : UIImage) : RegisterForm :=
  { s with screen := { s.screen with selectedImage := image } }.modifyPage 1
    fun cell => { cell with charactorImage := some image }

/-- The cell shows one of the pages. -/
def isOnScreen (s : RegisterForm) (n : ℕ) : Bool :=
  (List.range 3).any fun page => s.pageCells page == some n

/-- `dequeueReusableCell`: a new cell, or one that shows no page. -/
def dequeueReusableCell (s : RegisterForm) : Option ℕ → Option (ℕ × RegisterForm)
  | none =>
    let n := s.cells.length
    some (n, { s with
      cells := s.cells ++ [.new]
      screen := { s.screen with
        recordingViews := Function.update s.screen.recordingViews n .new } })
  | some n => if n < s.cells.length ∧ s.isOnScreen n = false then some (n, s) else none

/-- `cellForItemAt`, for a page that comes on screen. -/
def cellForItemAt (s : RegisterForm) (page : ℕ) (reused : Option ℕ) : Option RegisterForm := do
  let (n, s) ← s.dequeueReusableCell reused
  return { s with
    cells := s.cells.modify n fun cell => cell.setViewModel ⟨page⟩
    pageCells := Function.update s.pageCells page (some n) }

/-- An event of the screen, whose recording views and fields change. -/
def handle (number : ℕ) (s : RegisterForm) (e : RegisterScreen.Event) : RegisterForm :=
  let (screen, device) := s.screen.handle s.device number e
  { s with screen, device }

/-! ## Events -/

/-- What happens on the pages. -/
inductive Event
  | cellForItemAt (page : ℕ) (reused : Option ℕ)
  | didEndDisplaying (page : ℕ)
  | didTapPrevButton
  | didTapNextButton
  | scrollViewWillEndDragging (page : ℕ)
  /-- The oldest timer fires. -/
  | timer
  | didFinishPicking (image : UIImage)
  /-- The user edits the name field of page 0. -/
  | didChangeText (text : String)
  /-- The user edits the text of page 2. -/
  | textViewDidChange (text : String)
  /-- The record button of page 2. -/
  | didTapRecordButton (starts : Bool)
  | recognize (cell : ℕ) (dialogue : String)

/-- One event on the screen with the given number. -/
def step (number : ℕ) (s : RegisterForm) : Event → Option RegisterForm
  | .cellForItemAt page reused =>
    if page < 3 ∧ s.pageCells page = none then s.cellForItemAt page reused else none
  | .didEndDisplaying page => some { s with pageCells := Function.update s.pageCells page none }
  | .didTapPrevButton => some s.didTapPrevButton
  | .didTapNextButton => some s.didTapNextButton
  | .scrollViewWillEndDragging page => some (s.scrollViewWillEndDragging page)
  | .timer =>
    match s.timers with
    | pageNumber :: timers => some ({ s with timers }.setupNaxtPageUI pageNumber)
    | [] => none
  | .didFinishPicking image => some (s.didFinishPicking image)
  | .didChangeText text =>
    (s.pageCells 0).map fun _ =>
      (s.modifyPage 0 fun cell => { cell with nameText := text }).handle number
        (.didChangeText text)
  | .textViewDidChange text =>
    (s.pageCells 2).map fun n => s.handle number (.textViewDidChange n text)
  | .didTapRecordButton starts =>
    (s.pageCells 2).map fun n => s.handle number (.didTapRecordButton n starts)
  | .recognize cell dialogue =>
    if cell < s.cells.length then some (s.handle number (.recognize cell dialogue)) else none

end RegisterForm

end DialogueApp
