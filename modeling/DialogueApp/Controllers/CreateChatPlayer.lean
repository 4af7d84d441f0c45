import DialogueApp.Controllers.CreateChatController
import DialogueApp.Lib.Playback

/-!
# The preview player of the create screen

`CreateChatController` with its audio: the clips taken from the picked lines at a start tap, the
player, the play index, and the item to which the list of picked lines was scrolled last.  The
controller lives on between two presentations of the screen, with its player.

A finish callback is that of the player the controller holds.  Whether a clip can be loaded is
decided when the load is tried.
-/

namespace DialogueApp

/-- The create screen with the state of its preview. -/
structure CreateChatPlayer where
  create : CreateChatController
  selectedAudios : List URL
  audioPlayer : Playback URL
  playNum : ℕ
  /-- The item to which `conversationBottomView.collectionView` was scrolled last. -/
  scrolledTo : Int
  /-- The clips shown so far, each with the item scrolled to for it. -/
  shown : List (URL × ℕ)
  /-- The screen is presented. -/
  presented : Bool

namespace CreateChatPlayer

/-- The screen as it is first presented. -/
def launched : CreateChatPlayer where
  create := .presented
  selectedAudios := []
  audioPlayer := .new
  playNum := 0
  scrolledTo := -1
  shown := []
  presented := true

/-- `prepare(num:)`, where a load that is tried ends as `loads` says.  The bound is checked on
`playNum`, at which the list is read; `num` is not looked at. -/
def prepare (s : CreateChatPlayer) (_num : ℕ) (loads : Bool) : Bool × CreateChatPlayer :=
  match s.selectedAudios[s.playNum]? with
  | some url =>
    if loads then (true, { s with audioPlayer := s.audioPlayer.load url }) else (false, s)
  | none => (false, s)

/-- `scrollCollectionView(num:)`, noted beside the clip that is loaded. -/
def scrollCollectionView (s : CreateChatPlayer) (num : ℕ) : CreateChatPlayer :=
  { s with scrolledTo := num,
           shown := s.shown ++ s.audioPlayer.loaded.toList.map fun clip => (clip, num) }

/-- Both starts: `prepare`, and where it succeeds play and scroll. -/
def startPlay (s : CreateChatPlayer) (loads : Bool) : CreateChatPlayer :=
  let (prepared, s) := s.prepare s.playNum loads
  if prepared then
    let s := { s with audioPlayer := s.audioPlayer.play }
    s.scrollCollectionView s.playNum
  else s

/-- The loop body of `didTapStartButton`: a line without a URL is passed over. -/
def appendAudio (url : URLParser) (selectedAudios : List URL) (dialogue : Dialogue) : List URL :=
  match url.parse dialogue.audioUrl with
  | none => selectedAudios
  | some url => selectedAudios ++ [url]

/-- `didTapStartButton()` -/
def didTapStartButton (url : URLParser) (s : CreateChatPlayer) (loads : Bool) : CreateChatPlayer :=
  let s := { s with selectedAudios := [] }
  let selectedAudios := s.create.bottomDialogues.foldl (appendAudio url) s.selectedAudios
  let s := { s with selectedAudios }
  s.startPlay loads

/-- `audioPlayerDidFinishPlaying`, whose body after the increment is that of `startPlay`. -/
def audioPlayerDidFinishPlaying (s : CreateChatPlayer) (loads : Bool) : CreateChatPlayer :=
  let s := { s with playNum := s.playNum + 1 }
  s.startPlay loads

/-! ## Events -/

/-- What happens to the screen and its player. -/
inductive Event
  /-- An event of the screen; `defaultUI` is the create button's, which presents the screen. -/
  | screen (e : CreateChatController.Event)
  | didTapStartButton (loads : Bool)
  /-- The clip that plays has come to its end. -/
  | didFinishPlaying (loads : Bool)
  | didTapCloseButton
  /-- The screen is dismissed by the completion of a `fetchConversations()`. -/
  | dismissed

/-- An event of the screen is a touch. -/
def isTouch : CreateChatController.Event → Bool
  | .selectCharacter _ => true
  | .didSelectRow _ => true
  | .editTitle _ => true
  | .didTapRegisterButton => true
  | _ => false

/-- Whether an event can happen.  Touches need the screen to be presented and the create button
needs it not to be, and only a clip that plays comes to its end. -/
def canHappen (s : CreateChatPlayer) : Event → Bool
  | .screen (.defaultUI _) => !s.presented
  | .screen e => s.presented || !isTouch e
  | .didTapStartButton _ => s.presented && !s.create.startButtonHidden
  | .didFinishPlaying _ => s.audioPlayer.isPlaying
  | .didTapCloseButton => s.presented
  | .dismissed => s.presented

/-- An event of the screen assigns `conversationBottomView.dialogues`, whose `didSet` scrolls to the
last item. -/
def assignsBottomDialogues : CreateChatController.Event → Bool
  | .didSelectRow _ => true
  | .defaultUI _ => true
  | _ => false

/-- An event of the screen has led to `create`. -/
def onScreen (s : CreateChatPlayer) (e : CreateChatController.Event)
    (create : CreateChatController) : CreateChatPlayer :=
  { s with
    create
    scrolledTo :=
      if assignsBottomDialogues e then (create.bottomDialogues.length : Int) - 1 else s.scrolledTo
    presented := s.presented || e matches .defaultUI _ }

/-- What the controller does on an event. -/
def handle (url : URLParser) (sameName : String → String → Bool) (s : CreateChatPlayer) :
    Event → Option CreateChatPlayer
  | .screen e => (s.create.step sameName e).map (s.onScreen e)
  | .didTapStartButton loads => some (s.didTapStartButton url loads)
  | .didFinishPlaying loads =>
    some ({ s with audioPlayer := s.audioPlayer.stop }.audioPlayerDidFinishPlaying loads)
  | .didTapCloseButton => some { s with presented := false }
  | .dismissed => some { s with presented := false }

/-- One event, if it can happen. -/
def step (url : URLParser) (sameName : String → String → Bool) (s : CreateChatPlayer) (e : Event) :
    Option CreateChatPlayer :=
  if s.canHappen e then s.handle url sameName e else none

end CreateChatPlayer

end DialogueApp
