import DialogueApp.Model.Documents
import Mathlib.Logic.Function.Basic

/-!
# Recording on a device

Every `RecordingView` records into one file of the device, `test.m4a`, and reports that file to its
screen after a stop, a recognition result and a text edit.  A `Recording` remembers on which
registration screen its recorder was started and stopped; a file holds the recording whose recorder
created it last.
-/

namespace DialogueApp

/-- What one run of a recorder has put on disk. -/
structure Recording where
  /-- The registration screen on which the recorder was started, if it was in this launch. -/
  startedOn : Option ℕ
  /-- The registration screen on which it was stopped. -/
  stoppedOn : Option ℕ
  deriving DecidableEq, Repr

/-- The recordings of a device and the files that hold them. -/
structure Device where
  /-- `FileManager.default.urls(for: .documentDirectory, in: .userDomainMask)[0]` -/
  documentDirectory : String
  /-- All recordings made so far, in the order of their starts. -/
  recordings : List Recording
  /-- The recording each file holds. -/
  files : URL → Option ℕ

/-- A device on which nothing has been recorded. -/
def Device.new (documentDirectory : String) : Device where
  documentDirectory := documentDirectory
  recordings := []
  files := fun _ => none

/-- The content of a file, as it is now. -/
def Device.read (device : Device) (file : URL) : Option Recording :=
  (device.files file).bind fun n => device.recordings[n]?

/-- What a recording view reports to its screen. -/
structure AudioInfo where
  text : String
  audio : URL

/-- `RecordingView`, its speech half and its controls apart. -/
structure RecordingView where
  isStart : Bool
  audioRecorder : Option ℕ
  /-- `dialogueTextView.text` -/
  text : String

namespace RecordingView

/-- A view that has recorded nothing. -/
def new : RecordingView where
  isStart := false
  audioRecorder := none
  text := ""

/-- `getDirectory(filename:)` -/
def getDirectory (device : Device) (filename : String) : URL :=
  ⟨device.documentDirectory ++ "/" ++ filename ++ ".m4a"⟩

/-- `startRecording()` on a view of the screen; `starts` says whether `AVAudioRecorder(url:settings:)`
succeeds. -/
def startRecording (v : RecordingView) (device : Device) (screen : ℕ) (starts : Bool) :
    RecordingView × Device :=
  if starts then
    ({ v with audioRecorder := some device.recordings.length },
     { device with
       recordings := device.recordings ++ [⟨some screen, none⟩]
       files := Function.update device.files (getDirectory device "test")
         (some device.recordings.length) })
  else (v, device)

/-- `stopRecording()` on a view of the screen. -/
def stopRecording (v : RecordingView) (device : Device) (screen : ℕ) : RecordingView × Device :=
  match v.audioRecorder with
  | some n =>
    ({ v with audioRecorder := none },
     { device with
       recordings := device.recordings.modify n fun r => { r with stoppedOn := some screen } })
  | none => (v, device)

/-- What the view reports to its delegate, whether or not something has been recorded. -/
def report (v : RecordingView) (device : Device) : AudioInfo :=
  ⟨v.text, getDirectory device "test"⟩

/-- `didTapRecordButton()`, with the report to the delegate where there is one. -/
def didTapRecordButton (v : RecordingView) (device : Device) (screen : ℕ) (starts : Bool) :
    RecordingView × Device × Option AudioInfo :=
  let v := { v with isStart := !v.isStart }
  if v.isStart then
    let (v, device) := v.startRecording device screen starts
    (v, device, none)
  else
    let (v, device) := v.stopRecording device screen
    (v, device, some (v.report device))

/-- A tap flips the flag, leaves the text, and reports the text if it reports. -/
theorem didTapRecordButton_effect (v : RecordingView) (device : Device) (screen : ℕ)
    (starts : Bool) :
    let result := v.didTapRecordButton device screen starts
    result.1.isStart = (!v.isStart) ∧ result.1.text = v.text ∧
      ∀ info, result.2.2 = some info → info.text = v.text := by
  unfold didTapRecordButton
  cases h : v.isStart with
  | false => cases starts <;> exact ⟨rfl, rfl, nofun⟩
  | true =>
    simp only [stopRecording, Bool.not_true, Bool.false_eq_true, if_false]
    split <;> exact ⟨rfl, rfl, fun info hinfo => (Option.some.inj hinfo) ▸ rfl⟩

/-- The result handler of the recognition task. -/
def recognize (v : RecordingView) (device : Device) (dialogue : String) :
    RecordingView × AudioInfo :=
  let v := { v with text := dialogue }
  (v, v.report device)

/-- `textViewDidChange`, once the user has changed the text. -/
def textViewDidChange (v : RecordingView) (device : Device) (text : String) :
    RecordingView × AudioInfo :=
  let v := { v with text := text }
  (v, v.report device)

end RecordingView

end DialogueApp
