import DialogueApp.Controllers.RegisterDialogueForm
import DialogueApp.Proof.Sounds

/-!
# The screen for a further line and what it registers

The text is kept by the controller and by the text view, the recording in a file that the start button
plays and the upload reads later.  In every run the two copies of the text agree, the buttons say what
is going on, and the start button plays the recording that a register tap hands on.  Where no recorder
has started on the screen, that is the last recording of an earlier screen.
-/

namespace DialogueApp.RegisterDialogueForm

open RecordingView Runs

variable {number : ℕ} {s s' : RegisterDialogueForm} {e : Event}

/-- The event of the registration screen that an event is. -/
def screenEvent : Event → Option RegisterScreen.Event
  | .didTapRecordButton starts => some (.didTapRecordButton 0 starts)
  | .recognize dialogue => some (.recognize 0 dialogue)
  | .textViewDidChange text => some (.textViewDidChange 0 text)
  | _ => none

/-- The controller's fields and the device change as on any registration screen. -/
theorem step_screen (h : s.step number e = some s') :
    (s'.screen, s'.device) =
      match screenEvent e with
      | some e' => s.screen.handle s.device number e'
      | none => (s.screen, s.device) := by
  cases e with
  | didTapStartButton loads =>
    simp only [step] at h
    split_ifs at h
    obtain rfl := Option.some.inj h
    rfl
  | didTapRecordButton starts =>
    obtain rfl := Option.some.inj h
    simp only [screenEvent, didTapRecordButton, RegisterScreen.handle, recordingView]
    generalize (s.screen.recordingViews 0).didTapRecordButton s.device number starts = result
    obtain ⟨v, device, report⟩ := result
    cases report <;> rfl
  | _ =>
    obtain rfl := Option.some.inj h
    rfl

theorem recordingView_setRecordingView (s : RegisterDialogueForm) (v : RecordingView) :
    (s.setRecordingView v).recordingView = v := by
  show Function.update s.screen.recordingViews 0 v 0 = v
  rw [Function.update_self]

/-! ## The buttons and the text -/

/-- The buttons say what is going on, and the controller has the text that is shown. -/
structure Agrees (s : RegisterDialogueForm) : Prop where
  text : s.screen.audioText = s.recordingView.text
  registerButton : s.registerButtonColor =
    if s.recordingView.text.length = 0 then .faded .purple else .cellColor .yellow
  recordButton : s.controls.recordButtonColor =
    if s.recordingView.isStart then .cellColor .pink else .chatViewMainColor .pink
  pulse : s.controls.pulsing = s.recordingView.isStart
  file : s.controls.startButtonHidden = false → s.screen.audioUrl = getDirectory s.device "test"

theorem agrees_new (device : Device) (characterInfo : CharacterInfo) (selected : Character) :
    (new device characterInfo selected).Agrees :=
  ⟨rfl, rfl, rfl, rfl, nofun⟩

/-- A report of the text that the view shows. -/
theorem Agrees.report (h : s.Agrees) {v : RecordingView}
    (hstart : v.isStart = s.recordingView.isStart) :
    ((s.setRecordingView v).audioInfo (v.report s.device)).Agrees := by
  have hview : ((s.setRecordingView v).audioInfo (v.report s.device)).recordingView = v :=
    recordingView_setRecordingView s v
  constructor
  · rw [hview]
    rfl
  · rw [hview]
    rfl
  · rw [hview, hstart]
    exact h.recordButton
  · rw [hview, hstart]
    exact h.pulse
  · exact fun _ => rfl

/-- A tap that starts to record: the controls follow the flag, and text and file stay. -/
theorem Agrees.starts (h : s.Agrees) {v : RecordingView} {device : Device}
    (hstart : v.isStart = true) (htext : v.text = s.recordingView.text)
    (hdirectory : device.documentDirectory = s.device.documentDirectory) :
    Agrees { s.setRecordingView v with
      device, controls := s.controls.didTapRecordButton v.isStart } := by
  have hview : ∀ controls, recordingView { s.setRecordingView v with device, controls } = v :=
    fun _ => recordingView_setRecordingView s v
  rw [hstart]
  constructor
  · rw [hview, htext]
    exact h.text
  · rw [hview, htext]
    exact h.registerButton
  · rw [hview, hstart]
    rfl
  · rw [hview, hstart]
    rfl
  · intro hshown
    have hfile := h.file hshown
    rw [getDirectory] at hfile ⊢
    rw [hdirectory]
    exact hfile

/-- A tap that stops it: the controls follow the flag, and the text is reported with the file. -/
theorem agrees_stops (s : RegisterDialogueForm) {v : RecordingView} (device : Device)
    (hstart : v.isStart = false) :
    Agrees (audioInfo { s.setRecordingView v with
      device, controls := s.controls.didTapRecordButton v.isStart } (v.report device)) := by
  have hview : ∀ controls, recordingView
      (audioInfo { s.setRecordingView v with device, controls } (v.report device)) = v :=
    fun _ => recordingView_setRecordingView s v
  rw [hstart]
  constructor
  · rw [hview]
    rfl
  · rw [hview]
    rfl
  · rw [hview, hstart]
    rfl
  · rw [hview, hstart]
    rfl
  · exact fun _ => rfl

theorem Agrees.didTapRecordButton (h : s.Agrees) (starts : Bool) :
    (s.didTapRecordButton number starts).Agrees := by
  unfold RegisterDialogueForm.didTapRecordButton RecordingView.didTapRecordButton
  cases hstart : s.recordingView.isStart with
  | false =>
    cases starts with
    | true => exact h.starts rfl rfl rfl
    | false => exact h.starts rfl rfl rfl
  | true =>
    simp only [Bool.not_true, Bool.false_eq_true, if_false, stopRecording]
    cases s.recordingView.audioRecorder with
    | none => exact agrees_stops s _ rfl
    | some n => exact agrees_stops s _ rfl

theorem step_agrees (hs : s.Agrees) (h : s.step number e = some s') : s'.Agrees := by
  cases e with
  | layoutSubviews =>
    obtain rfl := Option.some.inj h
    exact ⟨hs.text, hs.registerButton, hs.recordButton, hs.pulse, nofun⟩
  | didTapRecordButton starts =>
    obtain rfl := Option.some.inj h
    exact hs.didTapRecordButton starts
  | didTapStartButton loads =>
    simp only [step] at h
    split_ifs at h
    obtain rfl := Option.some.inj h
    unfold RecordingControls.didTapStartButton
    split_ifs
    · cases s.device.read (getDirectory s.device "test") with
      | none => exact ⟨hs.text, hs.registerButton, hs.recordButton, hs.pulse, hs.file⟩
      | some r => exact ⟨hs.text, hs.registerButton, hs.recordButton, hs.pulse, hs.file⟩
    · exact ⟨hs.text, hs.registerButton, hs.recordButton, hs.pulse, hs.file⟩
  | recognize dialogue | textViewDidChange text =>
    obtain rfl := Option.some.inj h
    exact hs.report rfl
  | didTapRegisterButton =>
    obtain rfl := Option.some.inj h
    exact ⟨hs.text, hs.registerButton, hs.recordButton, hs.pulse, hs.file⟩

/-! ## What is registered -/

variable {info : CharacterInfo} {selected : Character}

/-- What a register tap hands on: the text that the text view shows, under the character. -/
def registered (info : CharacterInfo) (s : RegisterDialogueForm) : Event → List DialogueItem
  | .didTapRegisterButton =>
    [{ id := info.id, imageUrl := info.imageUrl.absoluteString, audio := s.screen.audioUrl
       text := s.recordingView.text, character := info.name }]
  | _ => []

theorem step_kind (h : s.step number e = some s') : s'.screen.kind = s.screen.kind := by
  have hscreen := congrArg Prod.fst (step_screen h)
  dsimp only at hscreen
  rw [hscreen]
  cases screenEvent e with
  | none => rfl
  | some e' => exact RegisterScreen.handle_kind s.screen s.device number e'

/-- A tap on the record button takes view and device where it takes a view and a device. -/
theorem didTapRecordButton_eq (s : RegisterDialogueForm) (number : ℕ) (starts : Bool) :
    let s' := s.didTapRecordButton number starts
    let result := s.recordingView.didTapRecordButton s.device number starts
    s'.recordingView = result.1 ∧ s'.device = result.2.1 ∧ s'.uploads = s.uploads := by
  unfold didTapRecordButton
  generalize s.recordingView.didTapRecordButton s.device number starts = result
  obtain ⟨v, device, report⟩ := result
  cases report with
  | none => exact ⟨recordingView_setRecordingView s v, rfl, rfl⟩
  | some info => exact ⟨recordingView_setRecordingView s v, rfl, rfl⟩

theorem step_uploads (hs : s.Agrees) (hkind : s.screen.kind = .dialogue (some info) selected)
    (h : s.step number e = some s') : s'.uploads = s.uploads ++ registered info s e := by
  cases e with
  | didTapRegisterButton =>
    obtain rfl := Option.some.inj h
    rw [didTapRegisterButton, dialogueItem, hkind, registered, hs.text]
    rfl
  | didTapRecordButton starts =>
    obtain rfl := Option.some.inj h
    rw [(didTapRecordButton_eq s number starts).2.2]
    exact (List.append_nil _).symm
  | didTapStartButton loads =>
    simp only [step] at h
    split_ifs at h
    obtain rfl := Option.some.inj h
    exact (List.append_nil _).symm
  | _ =>
    obtain rfl := Option.some.inj h
    exact (List.append_nil _).symm

/-- In every run the buttons say what is going on, and each register tap hands on the text that is
shown at the tap. -/
theorem registersWhatItShows (number : ℕ) (device : Device) (info : CharacterInfo)
    (selected : Character) (es : List Event) (s : RegisterDialogueForm)
    (hrun : run (step number) (new device info selected) es = some s) :
    s.Agrees ∧ s.uploads = trace (step number) (registered info) (new device info selected) es := by
  have hall : s.screen.kind = .dialogue (some info) selected ∧ s.Agrees ∧
      s.uploads = trace (step number) (registered info) (new device info selected) es :=
    run_observe_invariant
      (J := fun x h => x.screen.kind = .dialogue (some info) selected ∧ x.Agrees ∧ x.uploads = h)
      (fun x e x' h hx hstep => ⟨(step_kind hstep).trans hx.1, step_agrees hx.2.1 hstep,
        by rw [step_uploads hx.2.1 hx.1 hstep, hx.2.2]⟩)
      ⟨rfl, agrees_new device info selected, rfl⟩ hrun
  exact hall.2

/-! ## What is played back -/

/-- The recorder that an event starts. -/
def startsRecorder (s : RegisterDialogueForm) : Event → ℕ
  | .didTapRecordButton true => if s.recordingView.isStart then 0 else 1
  | _ => 0

/-- How many recorders a run has started. -/
def recordersStarted (number : ℕ) (s : RegisterDialogueForm) (es : List Event) : ℕ :=
  observe (step number) (fun s e n => n + s.startsRecorder e) s es 0

/-- The `n` recordings made on the screen so far, of which the last one may be going on. -/
inductive Recorded (number : ℕ) (device : Device) : ℕ → RegisterDialogueForm → Prop
  | idle {n : ℕ} {s : RegisterDialogueForm} (hrecorder : s.recordingView.audioRecorder = none)
      (hrecordings : s.device.recordings =
        device.recordings ++ List.replicate n ⟨some number, some number⟩) : Recorded number device n s
  | running {n : ℕ} {s : RegisterDialogueForm} (hstart : s.recordingView.isStart = true)
      (hrecorder : s.recordingView.audioRecorder = some (device.recordings.length + n))
      (hrecordings : s.device.recordings =
        (device.recordings ++ List.replicate n ⟨some number, some number⟩) ++ [⟨some number, none⟩]) :
      Recorded number device (n + 1) s

variable {device : Device} {n : ℕ}

theorem recorded_new : Recorded number device 0 (new device info selected) :=
  .idle rfl (List.append_nil _).symm

/-- A change that leaves recorder and recordings alone. -/
theorem Recorded.same (h : Recorded number device n s)
    (hrecorder : s'.recordingView.audioRecorder = s.recordingView.audioRecorder)
    (hstart : s'.recordingView.isStart = s.recordingView.isStart)
    (hrecordings : s'.device.recordings = s.device.recordings) : Recorded number device n s' := by
  cases h with
  | idle hr hd => exact .idle (hrecorder.trans hr) (hrecordings.trans hd)
  | running hs hr hd =>
    exact .running (hstart.trans hs) (hrecorder.trans hr) (hrecordings.trans hd)

theorem modify_concat {α : Type*} (l : List α) (a : α) (f : α → α) :
    (l ++ [a]).modify l.length f = l ++ [f a] := by
  induction l with
  | nil => rfl
  | cons b l ih =>
    rw [List.cons_append, List.length_cons, List.modify_succ_cons, ih]
    rfl

theorem Recorded.didTapRecordButton (h : Recorded number device n s) (starts : Bool) :
    Recorded number device (n + s.startsRecorder (.didTapRecordButton starts))
      (s.didTapRecordButton number starts) := by
  obtain ⟨hview, hdevice, -⟩ := didTapRecordButton_eq s number starts
  unfold RecordingView.didTapRecordButton at hview hdevice
  cases hstart : s.recordingView.isStart with
  | false =>
    cases h with
    | running hs => rw [hs] at hstart; cases hstart
    | idle hrecorder hrecordings =>
      cases starts with
      | true =>
        simp only [hstart, Bool.not_false, if_true, startRecording] at hview hdevice
        have hone : s.startsRecorder (.didTapRecordButton true) = 1 := by
          rw [startsRecorder, hstart]
          rfl
        rw [hone]
        refine .running (by rw [hview]) ?_ (by rw [hdevice, hrecordings])
        rw [hview, hrecordings]
        simp
      | false =>
        simp only [hstart, Bool.not_false, if_true, startRecording, Bool.false_eq_true,
          if_false] at hview hdevice
        refine .idle ?_ ?_
        · rw [hview]
          exact hrecorder
        · rw [hdevice]
          exact hrecordings
  | true =>
    have hnone : s.startsRecorder (.didTapRecordButton starts) = 0 := by
      cases starts with
      | true =>
        rw [startsRecorder, hstart]
        rfl
      | false => rfl
    rw [hnone, Nat.add_zero]
    simp only [hstart, Bool.not_true, Bool.false_eq_true, if_false, stopRecording] at hview hdevice
    cases h with
    | idle hrecorder hrecordings =>
      rw [hrecorder] at hview hdevice
      refine .idle (by rw [hview]) ?_
      rw [hdevice]
      exact hrecordings
    | @running n _ _ hrecorder hrecordings =>
      rw [hrecorder] at hview hdevice
      refine .idle (by rw [hview]) ?_
      have hlength : device.recordings.length + n =
          (device.recordings ++ List.replicate n
            (⟨some number, some number⟩ : Recording)).length := by simp
      rw [hdevice]
      dsimp only
      rw [hrecordings, hlength, modify_concat, List.replicate_succ', List.append_assoc]

theorem step_recorded (hs : Recorded number device n s) (h : s.step number e = some s') :
    Recorded number device (n + s.startsRecorder e) s' := by
  cases e with
  | didTapRecordButton starts =>
    obtain rfl := Option.some.inj h
    exact hs.didTapRecordButton starts
  | didTapStartButton loads =>
    simp only [step] at h
    split_ifs at h
    obtain rfl := Option.some.inj h
    exact hs.same rfl rfl rfl
  | recognize dialogue | textViewDidChange text =>
    obtain rfl := Option.some.inj h
    exact hs.same rfl rfl rfl
  | layoutSubviews | didTapRegisterButton =>
    obtain rfl := Option.some.inj h
    exact hs.same rfl rfl rfl

theorem step_oneFile (hs : s.device.OneFile) (h : s.step number e = some s') :
    s'.device.OneFile := by
  have hdevice := congrArg Prod.snd (step_screen h)
  dsimp only at hdevice
  rw [hdevice]
  cases screenEvent e with
  | none => exact hs
  | some e' => exact handle_oneFile hs s.screen number e'

/-- Wherever the start button is shown, it plays the recording that a register tap hands on.  Unless a
recorder is running, that is one made on this screen, or the last one of the device where no recorder
has started on this screen. -/
theorem playsWhatItRegisters (number : ℕ) (device : Device) (info : CharacterInfo)
    (selected : Character) (es : List Event) (s : RegisterDialogueForm) (hfile : device.OneFile)
    (hrun : run (step number) (new device info selected) es = some s)
    (hshown : s.controls.startButtonHidden = false) :
    (∃ s', s.step number (.didTapStartButton true) = some s' ∧
      ∀ recording, s.device.read s.screen.audioUrl = some recording →
        s'.controls.audioPlayer = some recording) ∧
    (s.recordingView.audioRecorder = none → s.device.read s.screen.audioUrl =
      if recordersStarted number (new device info selected) es = 0 then device.recordings.getLast?
      else some ⟨some number, some number⟩) := by
  have hall : s.Agrees ∧ s.device.OneFile ∧ Recorded number device
      (recordersStarted number (new device info selected) es) s :=
    run_observe_invariant
      (J := fun x n => x.Agrees ∧ x.device.OneFile ∧ Recorded number device n x)
      (fun x e x' n hx hstep => ⟨step_agrees hx.1 hstep, step_oneFile hx.2.1 hstep,
        step_recorded hx.2.2 hstep⟩)
      ⟨agrees_new device info selected, hfile, recorded_new⟩ hrun
  obtain ⟨hagrees, hone, hrecorded⟩ := hall
  have haudio := hagrees.file hshown
  refine ⟨⟨_, by rw [step, hshown]; rfl, fun recording hread => ?_⟩, fun hnone => ?_⟩
  · rw [haudio] at hread
    simp only [RecordingControls.didTapStartButton, hread, if_true]
  · rw [haudio, hone.read, if_pos rfl]
    generalize recordersStarted number (new device info selected) es = n at hrecorded ⊢
    cases hrecorded with
    | running _ hrecorder =>
      rw [hrecorder] at hnone
      cases hnone
    | idle _ hrecordings =>
      rw [hrecordings]
      cases n with
      | zero => simp
      | succ k => simp [List.replicate_succ']

/-- A recording that does not start, then one that does, each with its stop. -/
def recordTwice : List Event :=
  [.layoutSubviews, .didTapRecordButton false, .didTapRecordButton true, .didTapRegisterButton,
   .didTapRecordButton true, .recognize "text", .didTapRecordButton true, .didTapStartButton true,
   .didTapRegisterButton]

/-- The character whose line is recorded. -/
def sampleInfo : CharacterInfo := ⟨"id", ⟨"image url"⟩, "name"⟩

theorem registersWhatItShows_sample :
    ∃ s, run (step 0) (new (Device.new "documents") sampleInfo (Character.init [] 0)) recordTwice =
        some s ∧ s.uploads.length = 2 ∧ s.Agrees := by
  have hrun : ∃ s, run (step 0) (new (Device.new "documents") sampleInfo (Character.init [] 0))
      recordTwice = some s ∧ s.uploads.length = 2 := ⟨_, rfl, rfl⟩
  obtain ⟨s, hrun, htwo⟩ := hrun
  exact ⟨s, hrun, htwo, (registersWhatItShows 0 _ _ _ _ s hrun).1⟩

theorem playsWhatItRegisters_sample :
    ∃ s, run (step 0) (new (Device.new "documents") sampleInfo (Character.init [] 0)) recordTwice =
        some s ∧ s.device.read s.screen.audioUrl = some ⟨some 0, some 0⟩ := by
  have hrun : ∃ s, run (step 0) (new (Device.new "documents") sampleInfo (Character.init [] 0))
      recordTwice = some s ∧ s.controls.startButtonHidden = false ∧
      s.recordingView.audioRecorder = none := ⟨_, rfl, rfl, rfl⟩
  obtain ⟨s, hrun, hshown, hidle⟩ := hrun
  exact ⟨s, hrun,
    (playsWhatItRegisters 0 _ _ _ _ s (Device.oneFile_new "documents") hrun hshown).2 hidle⟩

end DialogueApp.RegisterDialogueForm
