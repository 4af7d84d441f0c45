import DialogueApp.Controllers.RegisterForm

/-!
# The bottom bar of `RegisterViewController`

The form with its two bottom buttons and the page its collection view has been scrolled to.  Each of
the three functions that turn a page dresses the buttons on its own.
-/

namespace DialogueApp

/-- How a bottom button looks. -/
structure BottomButton where
  title : String
  titleColor : ButtonColor
  backgroundColor : ButtonColor
  deriving DecidableEq, Repr

/-- `createBottomButton(action:title:)` -/
def createBottomButton (title : String) : BottomButton where
  title := title
  titleColor := if title = "prev" then .clear else .white
  backgroundColor := .clear

/-- `RegisterViewController` with its bottom bar. -/
structure RegisterPager extends RegisterForm where
  previousButton : BottomButton
  nextButton : BottomButton
  /-- The page at the offset to which `collectionView` scrolls. -/
  scrolledTo : ℕ

namespace RegisterPager

/-- The controller as it is pushed. -/
def new (device : Device) : RegisterPager where
  toRegisterForm := .new device
  previousButton := createBottomButton "prev"
  nextButton := createBottomButton "next"
  scrolledTo := 0

/-- `didTapPrevButton()`, which leaves the title colour of the next button. -/
def didTapPrevButton (s : RegisterPager) : RegisterPager :=
  let pageNumber := s.currentPage - 1
  let titleColor : ButtonColor := if pageNumber = 0 then .clear else .white
  { s with
    toRegisterForm := s.toRegisterForm.didTapPrevButton
    scrolledTo := pageNumber
    nextButton := { s.nextButton with backgroundColor := .clear, title := "next" }
    previousButton := { s.previousButton with titleColor } }

/-- `didTapNextButton()`; on the last page the button registers. -/
def didTapNextButton (s : RegisterPager) : RegisterPager :=
  let s := { s with previousButton := { s.previousButton with titleColor := .white } }
  if s.currentPage = 2 then { s with toRegisterForm := s.toRegisterForm.didTapNextButton }
  else
    let pageNumber := min (s.currentPage + 1) 2
    { s with
      toRegisterForm := s.toRegisterForm.didTapNextButton
      scrolledTo := pageNumber
      nextButton :=
        { title := if pageNumber = 2 then "登録" else "next"
          titleColor := if pageNumber = 2 then .chatViewMainColor .purple else .white
          backgroundColor := if pageNumber = 2 then .cellColor .yellow else .clear } }

/-- `scrollViewWillEndDragging`, whose yellow is not that of `didTapNextButton()`. -/
def scrollViewWillEndDragging (s : RegisterPager) (page : ℕ) : RegisterPager :=
  let currentPage := min page 2
  { s with
    toRegisterForm := s.toRegisterForm.scrollViewWillEndDragging page
    scrolledTo := page
    nextButton :=
      { title := if currentPage = 2 then "登録" else "next"
        titleColor := if currentPage = 2 then .chatViewMainColor .purple else .white
        backgroundColor := if currentPage = 2 then .chatViewMainColor .yellow else .clear }
    previousButton :=
      { s.previousButton with titleColor := if currentPage = 0 then .clear else .white } }

/-- One event on the screen with the given number. -/
def step (number : ℕ) (s : RegisterPager) : RegisterForm.Event → Option RegisterPager
  | .didTapPrevButton => some s.didTapPrevButton
  | .didTapNextButton => some s.didTapNextButton
  | .scrollViewWillEndDragging page => some (s.scrollViewWillEndDragging page)
  | e => (s.toRegisterForm.step number e).map fun form => { s with toRegisterForm := form }

end RegisterPager

end DialogueApp
