import DialogueApp.Controllers.RecordingView

/-!
# The speech half of a recording view

`startSpeech` and `stopSpeech` of `RecordingView`: the audio engine, the recognition request and the
recognition task, with the calls made on them in order.  The engine has one input node, whose bus 0
is tapped.  The request is a stored property with an initial value, so a view makes one in its life;
requests are told apart by the order in which they were made.
-/

namespace DialogueApp

/-- A task is known by the request it was started with. -/
structure RecognitionTask where
  request : ℕ
  deriving DecidableEq, Repr

/-- The calls to the audio engine and the speech framework. -/
inductive AudioCall
  | installTap
  | prepare
  | startEngine
  | recognitionTask (request : ℕ)
  | finish (task : RecognitionTask)
  | cancel (task : RecognitionTask)
  | endAudio (request : ℕ)
  | stopEngine
  | removeTap
  deriving DecidableEq, Repr

/-- A recording view with its speech half. -/
structure SpeechView extends RecordingView where
  recognitionRequest : ℕ
  task : Option RecognitionTask
  /-- The calls made so far. -/
  calls : List AudioCall

/-- A tap on the record button, with what the device answers. -/
structure RecordTap where
  /-- `AVAudioRecorder(url:settings:)` succeeds. -/
  starts : Bool
  /-- `SFSpeechRecognizer()` is not `nil`. -/
  recognizer : Bool

namespace SpeechView

/-- A view that has made its request and nothing else. -/
def new : SpeechView where
  toRecordingView := RecordingView.new
  recognitionRequest := 0
  task := none
  calls := []

/-- `startSpeech()`.  An engine that does not start is only printed. -/
def startSpeech (v : SpeechView) (recognizer : Bool) : SpeechView :=
  let v := { v with calls := v.calls ++ [.installTap, .prepare, .startEngine] }
  if recognizer then
    { v with task := some ⟨v.recognitionRequest⟩
             calls := v.calls ++ [.recognitionTask v.recognitionRequest] }
  else v

/-- `stopSpeech()` -/
def stopSpeech (v : SpeechView) : SpeechView :=
  let calls := match v.task with
    | some task => v.calls ++ [.finish task, .cancel task]
    | none => v.calls
  { v with task := none
           calls := calls ++ [.endAudio v.recognitionRequest, .stopEngine, .removeTap] }

/-- `didTapRecordButton()` with both halves, which share `isStart` and nothing else. -/
def didTapRecordButton (v : SpeechView) (device : Device) (screen : ℕ) (tap : RecordTap) :
    SpeechView × Device × Option AudioInfo :=
  let (view, device, report) := v.toRecordingView.didTapRecordButton device screen tap.starts
  let v := if view.isStart then v.startSpeech tap.recognizer else v.stopSpeech
  ({ v with toRecordingView := view }, device, report)

/-- A tap after a run of taps, on the view and the device of a screen. -/
def tap (screen : ℕ) (s : SpeechView × Device) (tap : RecordTap) : SpeechView × Device :=
  let (v, device, _) := s.1.didTapRecordButton s.2 screen tap
  (v, device)

end SpeechView

end DialogueApp
