import DialogueApp.Controllers.CreateChatUpload
import DialogueApp.Controllers.TopViewController

/-!
# The two screens and their fetches

`TopViewController` with the one `CreateChatController` it presents again and again, from the launch
of the app on: the fetches both have issued, in issue order, and the registrations of the create
screen.  A fetch stays on its way for as long as the network likes; its completion runs when it is
answered, whatever is on screen by then, and not at all when there is no snapshot.

Of an `uploadCharacter` and an `uploadDialogue` only the fetches at their end are here.  The numbers
of the presentations, what has been stored and dismissed, and the order in which the fetches were
answered are kept as history.
-/

namespace DialogueApp

/-- Who has issued a fetch, and so what its completion does. -/
inductive Purpose
  /-- `TopViewController.fetchConversations()` -/
  | conversations
  /-- `CreateChatController.fetchCharacters()` -/
  | characters
  /-- `CreateChatController.fetchDialogues()` -/
  | dialogues
  /-- The `fetchCharacter` of an `uploadCharacter`. -/
  | newCharacters
  /-- The `fetchDialogue` of an `uploadCharacter`, after its `fetchCharacter` has been answered. -/
  | newDialogues (characters : List Character)
  /-- The `fetchDialogue` of an `uploadDialogue` for a line of this character. -/
  | addedDialogues (selected : Character)

/-- The collection that is fetched. -/
def Purpose.collection : Purpose → Collection
  | .conversations => .conversations
  | .characters => .characters
  | .dialogues => .dialogues
  | .newCharacters => .characters
  | .newDialogues _ => .dialogues
  | .addedDialogues _ => .dialogues

/-- How a fetch has ended, if it has. -/
inductive FetchAnswer
  | pending
  | noSnapshot
  | documents (documents : List Document) (now : Timestamp)

/-- A fetch that has been issued. -/
structure Fetch where
  purpose : Purpose
  answer : FetchAnswer

namespace Fetch

/-- The documents of the answer, decoded as in `fetchDocuments`. -/
def decode {α : Type} (f : Fetch) (init : Dictionary → Timestamp → α) : List α :=
  match f.answer with
  | .documents documents now => documents.map fun document => init document.data now
  | _ => []

/-- What `fetchConversations` hands to its completion. -/
def conversations (f : Fetch) : List Conversation := f.decode Conversation.init

/-- What `fetchCharacter` hands to its completion. -/
def characters (f : Fetch) : List Character := f.decode Character.init

/-- What `fetchDialogue` hands to its completion. -/
def dialogues (f : Fetch) : List Dialogue := f.decode Dialogue.init

end Fetch

/-- A registration, with the presentation in which its tap was made. -/
structure Registration where
  presentation : ℕ
  program : Running Unit

/-- The end of a presentation. -/
structure Dismissal where
  presentation : ℕ
  /-- How many fetches had been issued when the presentation began. -/
  fetchesBefore : ℕ
  /-- The fetch whose completion has called `createChatController.dismiss`, by its number in issue
  order; `none` is the close button. -/
  fetch : Option ℕ

/-- Both screens, the fetches they have issued and the history of presentations. -/
structure Screens where
  top : TopViewController
  create : CreateChatController
  /-- `createChatController.view` has been loaded. -/
  viewLoaded : Bool
  /-- The number of presentations of the create screen so far, which numbers the last one. -/
  presentations : ℕ
  /-- How many fetches had been issued when the last presentation began. -/
  fetchesBefore : ℕ
  presented : Bool
  registrations : List Registration
  /-- The presentations whose registrations have been stored. -/
  stored : List ℕ
  /-- The fetches in the order in which they were issued. -/
  fetches : List Fetch
  /-- The answered fetches in the order in which they were answered. -/
  arrivals : List Fetch
  dismissals : List Dismissal

namespace Screens

/-- Issue a fetch. -/
def issue (s : Screens) (purpose : Purpose) : Screens :=
  { s with fetches := s.fetches ++ [⟨purpose, .pending⟩] }

/-- `TopViewController.fetchConversations()` -/
def fetchConversations (s : Screens) : Screens := s.issue .conversations

/-- The app after its launch, with the fetch of `TopViewController.viewDidLoad`. -/
def launched : Screens :=
  { top := .new, create := .new, viewLoaded := false, presentations := 0, fetchesBefore := 0,
    presented := false, registrations := [], stored := [], fetches := [], arrivals := [],
    dismissals := [] : Screens }.fetchConversations

/-- `CreateChatController.viewDidLoad()` -/
def viewDidLoad (s : Screens) : Screens :=
  let s := s.issue .characters
  let s := s.issue .dialogues
  { s with create := s.create.configureUI, viewLoaded := true }

/-- `didTapCreateButton()`, which loads the view of the create screen when it needs it first. -/
def didTapCreateButton (s : Screens) (onScreen : ℕ → Bool) : Screens :=
  let s := { s with create := s.create.defaultUI onScreen, fetchesBefore := s.fetches.length }
  let s := if s.viewLoaded then s else s.viewDidLoad
  { s with presentations := s.presentations + 1, presented := true }

/-- Dismiss the create screen, if it is presented, at the completion of a fetch or by the close
button. -/
def dismiss (s : Screens) (fetch : Option ℕ) : Screens :=
  if s.presented then
    { s with
      presented := false
      dismissals := s.dismissals ++ [⟨s.presentations, s.fetchesBefore, fetch⟩] }
  else s

/-- The completion of a fetch, the `k`-th one issued. -/
def handle (sameName : String → String → Bool) (s : Screens) (k : ℕ) (f : Fetch) : Screens :=
  match f.purpose with
  | .conversations => { s with top := s.top.fetchConversations f.conversations }.dismiss (some k)
  | .characters => { s with create := s.create.fetchCharacters f.characters }
  | .dialogues => { s with create := s.create.fetchDialogues f.dialogues }
  | .newCharacters => s.issue (.newDialogues f.characters)
  | .newDialogues characters =>
    { s with create := s.create.updateCharacter sameName { characters, dialogues := f.dialogues } }
  | .addedDialogues selected =>
    { s with create := s.create.addedDialogue f.dialogues selected }

/-- The answer to a fetch on its way: no snapshot, or documents at a time. -/
def answer (sameName : String → String → Bool) (s : Screens) (k : ℕ)
    (snapshot : Option (List Document × Timestamp)) : Option Screens :=
  match s.fetches[k]? with
  | some ⟨purpose, .pending⟩ =>
    match snapshot with
    | none => some { s with fetches := s.fetches.set k ⟨purpose, .noSnapshot⟩ }
    | some (documents, now) =>
      let f : Fetch := ⟨purpose, .documents documents now⟩
      some ({ s with fetches := s.fetches.set k f, arrivals := s.arrivals ++ [f] }.handle sameName k
        f)
  | _ => none

/-- What the request of a registration gives to its callback. -/
def reply (s : Screens) (ok : Bool) : (r : Request) → Option (Reply r)
  | .animate => some s.create
  | .setData .conversations _ _ => some !ok
  | _ => none

/-- The end of the animation of a registration, or the answer to its `addDocument`.  A registration
that has been stored calls `completion?(true)`. -/
def registrationAnswered (s : Screens) (k : ℕ) (ok : Bool) (m : Moment) : Option Screens :=
  match s.registrations[k]? with
  | some ⟨presentation, .call r next⟩ =>
    (s.reply ok r).map fun reply =>
      let program := next (reply, m)
      let s := { s with registrations := s.registrations.set k ⟨presentation, program⟩ }
      if program matches .done _ then
        { s with stored := s.stored ++ [presentation] }.fetchConversations
      else s
  | _ => none

/-! ## Events -/

/-- A touch on one of the screens, or the answer to a request. -/
inductive Event
  | didTapCreateButton (onScreen : ℕ → Bool)
  /-- A touch on the create screen, its buttons apart, or its keyboard. -/
  | screen (e : CreateChatController.Event)
  | didTapRegisterButton (m : Moment)
  | registrationAnswered (registration : ℕ) (ok : Bool) (m : Moment)
  /-- The last write of an `uploadCharacter` has been answered. -/
  | characterWritten
  /-- The write of an `uploadDialogue` has been answered. -/
  | dialogueWritten (selected : Character)
  | answer (fetch : ℕ) (snapshot : Option (List Document × Timestamp))
  | didTapCloseButton

/-- An event of the create screen is a touch on a list or a field, or the keyboard's. -/
def isInput : CreateChatController.Event → Bool
  | .selectCharacter _ => true
  | .didSelectRow _ => true
  | .editTitle _ => true
  | .showKeyboard _ => true
  | _ => false

/-- One event; `none` where it cannot happen, or traps. -/
def step (sameName : String → String → Bool) (s : Screens) : Event → Option Screens
  | .didTapCreateButton onScreen =>
    if s.presented then none else some (s.didTapCreateButton onScreen)
  | .screen e =>
    if s.presented && isInput e then
      (s.create.step sameName e).map fun create => { s with create }
    else none
  | .didTapRegisterButton m =>
    if s.presented && !s.create.registerButtonHidden then
      let (create, program) := s.create.didTapRegisterButton
      some { s with create, registrations :=
        s.registrations ++ [⟨s.presentations, program.run m⟩] }
    else none
  | .registrationAnswered k ok m => s.registrationAnswered k ok m
  | .characterWritten => some (s.issue .newCharacters)
  | .dialogueWritten selected => some (s.issue (.addedDialogues selected))
  | .answer k snapshot => s.answer sameName k snapshot
  | .didTapCloseButton => if s.presented then some (s.dismiss none) else none

end Screens

end DialogueApp
