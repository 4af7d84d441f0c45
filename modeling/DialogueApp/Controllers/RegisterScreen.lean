import DialogueApp.API.Services
import DialogueApp.Controllers.RecordingView

/-!
# The registration screens

`RegisterViewController` registers a character with its first line, `RegisterDialogueController` a
further line of a character.  Both keep the text and the sound file last reported by one of their
recording views; the cells of `RegisterViewController` bring a recording view each.
-/

namespace DialogueApp

/-- The colours of the buttons of the two screens. -/
inductive ButtonColor
  | clear
  | white
  | systemPink
  | cellColor (type : CellColorType)
  | chatViewMainColor (type : CellColorType)
  /-- `chatViewMainColor.withAlphaComponent(0.6)` -/
  | faded (type : CellColorType)
  deriving DecidableEq, Repr

/-- The character of a further line. -/
structure CharacterInfo where
  id : String
  imageUrl : URL
  name : String

/-- The two controllers. -/
inductive RegisterScreen.Kind
  /-- `RegisterViewController` -/
  | character
  /-- `RegisterDialogueController`, with the character its `completion` has captured. -/
  | dialogue (characterInfo : Option CharacterInfo) (selectedCharacter : Character)

/-- A registration screen, by what it would upload. -/
structure RegisterScreen where
  kind : RegisterScreen.Kind
  /-- The screen is on the navigation stack. -/
  onStack : Bool
  selectedImage : UIImage
  nameText : String
  audioText : String
  audioUrl : URL
  recordingViews : ℕ → RecordingView

namespace RegisterScreen

/-- `URL(fileURLWithPath: "")`, which is no file. -/
def noFile : URL := ⟨""⟩

/-- The screen as it is pushed. -/
def new (kind : Kind) : RegisterScreen where
  kind := kind
  onStack := true
  selectedImage := UIImage.empty
  nameText := ""
  audioText := ""
  audioUrl := noFile
  recordingViews := fun _ => RecordingView.new

/-- `audioInfo(audioInfo:)` of both controllers. -/
def audioInfo (s : RegisterScreen) (audioInfo : AudioInfo) : RegisterScreen :=
  { s with audioText := audioInfo.text, audioUrl := audioInfo.audio }

/-- What happens on a registration screen before its register tap. -/
inductive Event
  | didTapRecordButton (view : ℕ) (starts : Bool)
  | recognize (view : ℕ) (dialogue : String)
  | textViewDidChange (view : ℕ) (text : String)
  /-- `RegisterCellDelegate.didChangeText(text:)` -/
  | didChangeText (text : String)
  /-- The image picker has finished with an edited image. -/
  | didFinishPicking (image : UIImage)

/-- One event on the screen with the given number. -/
def handle (s : RegisterScreen) (device : Device) (screen : ℕ) : Event → RegisterScreen × Device
  | .didTapRecordButton view starts =>
    let (v, device, report) := (s.recordingViews view).didTapRecordButton device screen starts
    let s := { s with recordingViews := Function.update s.recordingViews view v }
    match report with
    | some info => (s.audioInfo info, device)
    | none => (s, device)
  | .recognize view dialogue =>
    let (v, info) := (s.recordingViews view).recognize device dialogue
    ({ s with recordingViews := Function.update s.recordingViews view v }.audioInfo info, device)
  | .textViewDidChange view text =>
    let (v, info) := (s.recordingViews view).textViewDidChange device text
    ({ s with recordingViews := Function.update s.recordingViews view v }.audioInfo info, device)
  | .didChangeText text => ({ s with nameText := text }, device)
  | .didFinishPicking image => ({ s with selectedImage := image }, device)

theorem handle_kind (s : RegisterScreen) (device : Device) (screen : ℕ) (e : Event) :
    (s.handle device screen e).1.kind = s.kind := by
  cases e with
  | didTapRecordButton view starts =>
    unfold handle
    dsimp only
    split <;> rfl
  | _ => rfl

/-- Whether an event is a touch, which only a screen on the stack gets.  A recognition result may
come later. -/
def Event.isTouch : Event → Bool
  | .recognize _ _ => false
  | _ => true

end RegisterScreen

end DialogueApp
