import DialogueApp.Controllers.RegisterScreen

/-!
# The screen for a further line

`RegisterDialogueController` with the buttons of its one recording view: the record button and its
pulse, the start button, which plays the recording back, and the register button, whose colour says
whether there is a text.

UIKit lays the recording view out when it likes, and each time the start button is hidden again.
-/

namespace DialogueApp

/-- The buttons of a recording view, its player and its pulse layer. -/
structure RecordingControls where
  /-- `recordButton.backgroundColor` -/
  recordButtonColor : ButtonColor
  /-- `pulseAnimationLayer` has its animation. -/
  pulsing : Bool
  startButtonHidden : Bool
  /-- What `audioPlayer` has been made with. -/
  audioPlayer : Option Recording

namespace RecordingControls

/-- The controls of a view that has been laid out. -/
def new : RecordingControls where
  recordButtonColor := .chatViewMainColor .pink
  pulsing := false
  startButtonHidden := true
  audioPlayer := none

/-- `configureUI()`, at every layout. -/
def configureUI (c : RecordingControls) : RecordingControls := { c with startButtonHidden := true }

/-- `startPulseAnimation()` -/
def startPulseAnimation (c : RecordingControls) : RecordingControls :=
  { c with recordButtonColor := .cellColor .pink, pulsing := true }

/-- What `stopRecording()` does to the record button. -/
def stopRecording (c : RecordingControls) : RecordingControls :=
  { c with recordButtonColor := .systemPink }

/-- `stopPulseAnimation()`, which also shows the start button. -/
def stopPulseAnimation (c : RecordingControls) : RecordingControls :=
  { c with recordButtonColor := .chatViewMainColor .pink, pulsing := false,
           startButtonHidden := false }

/-- What `didTapRecordButton()` does to the controls, with the flag as it has toggled it. -/
def didTapRecordButton (c : RecordingControls) (isStart : Bool) : RecordingControls :=
  if isStart then c.startPulseAnimation else c.stopRecording.stopPulseAnimation

/-- `didTapStartButton()`, which plays the file `test.m4a` where it can be loaded. -/
def didTapStartButton (c : RecordingControls) (device : Device) (loads : Bool) :
    RecordingControls :=
  if loads then
    match device.read (RecordingView.getDirectory device "test") with
    | some recording => { c with audioPlayer := some recording }
    | none => c
  else c

end RecordingControls

/-- `RegisterDialogueController` with its one recording view. -/
structure RegisterDialogueForm where
  /-- The controller's fields, and its recording view as number 0. -/
  screen : RegisterScreen
  device : Device
  controls : RecordingControls
  /-- `registerButton.backgroundColor` -/
  registerButtonColor : ButtonColor
  /-- What `uploadDialogue()` has handed on. -/
  uploads : List DialogueItem

namespace RegisterDialogueForm

/-- The controller as `didTapAddDialogueButton` pushes it. -/
def new (device : Device) (characterInfo : CharacterInfo) (selectedCharacter : Character) :
    RegisterDialogueForm where
  screen := .new (.dialogue (some characterInfo) selectedCharacter)
  device := device
  controls := .new
  registerButtonColor := .faded .purple
  uploads := []

/-- `recordingView` -/
def recordingView (s : RegisterDialogueForm) : RecordingView := s.screen.recordingViews 0

/-- Put the recording view back. -/
def setRecordingView (s : RegisterDialogueForm) (v : RecordingView) : RegisterDialogueForm :=
  { s with screen := { s.screen with
      recordingViews := Function.update s.screen.recordingViews 0 v } }

/-- `audioInfo(audioInfo:)` -/
def audioInfo (s : RegisterDialogueForm) (audioInfo : AudioInfo) : RegisterDialogueForm :=
  { s with
    screen := s.screen.audioInfo audioInfo
    registerButtonColor :=
      if audioInfo.text.length = 0 then .faded .purple else .cellColor .yellow }

/-- `didTapRecordButton()` of the recording view. -/
def didTapRecordButton (number : ℕ) (s : RegisterDialogueForm) (starts : Bool) :
    RegisterDialogueForm :=
  let (v, device, report) := s.recordingView.didTapRecordButton s.device number starts
  let s := { s.setRecordingView v with device, controls := s.controls.didTapRecordButton v.isStart }
  match report with
  | some info => s.audioInfo info
  | none => s

/-- The result handler of the recognition task. -/
def recognize (s : RegisterDialogueForm) (dialogue : String) : RegisterDialogueForm :=
  let (v, info) := s.recordingView.recognize s.device dialogue
  (s.setRecordingView v).audioInfo info

/-- `textViewDidChange` of the recording view. -/
def textViewDidChange (s : RegisterDialogueForm) (text : String) : RegisterDialogueForm :=
  let (v, info) := s.recordingView.textViewDidChange s.device text
  (s.setRecordingView v).audioInfo info

/-- What `uploadDialogue()` hands on. -/
def dialogueItem (s : RegisterScreen) : Option DialogueItem :=
  match s.kind with
  | .dialogue (some info) _ =>
    some { id := info.id, imageUrl := info.imageUrl.absoluteString, audio := s.audioUrl,
           text := s.audioText, character := info.name }
  | _ => none

/-- `didTapRegisterButton()`; the button is never disabled. -/
def didTapRegisterButton (s : RegisterDialogueForm) : RegisterDialogueForm :=
  { s with uploads := s.uploads ++ (dialogueItem s.screen).toList }

/-! ## Events -/

/-- What happens on the screen; `starts` and `loads` say how a recorder and a player are made. -/
inductive Event
  /-- The recording view is laid out. -/
  | layoutSubviews
  | didTapRecordButton (starts : Bool)
  | didTapStartButton (loads : Bool)
  | recognize (dialogue : String)
  | textViewDidChange (text : String)
  | didTapRegisterButton

/-- One event on the screen with the given number. -/
def step (number : ℕ) (s : RegisterDialogueForm) : Event → Option RegisterDialogueForm
  | .layoutSubviews => some { s with controls := s.controls.configureUI }
  | .didTapRecordButton starts => some (s.didTapRecordButton number starts)
  | .didTapStartButton loads =>
    if s.controls.startButtonHidden then none
    else some { s with controls := s.controls.didTapStartButton s.device loads }
  | .recognize dialogue => some (s.recognize dialogue)
  | .textViewDidChange text => some (s.textViewDidChange text)
  | .didTapRegisterButton => some s.didTapRegisterButton

end RegisterDialogueForm

end DialogueApp
