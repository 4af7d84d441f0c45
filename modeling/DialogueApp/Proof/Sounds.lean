import DialogueApp.Proof.WorldInvariant

/-!
# The recorded voice

All recording views of a device record into `test.m4a`, so the sound file an upload puts is the
recording that was started last, on whatever screen.
-/

namespace DialogueApp

open RecordingView Runs

/-! ## The file of a device -/

/-- Only `test.m4a` holds a recording, the one that was started last. -/
structure Device.OneFile (device : Device) : Prop where
  test : device.files (getDirectory device "test") =
    if device.recordings = [] then none else some (device.recordings.length - 1)
  other : ∀ url, url ≠ getDirectory device "test" → device.files url = none

section device

variable {device device' : Device}

theorem Device.oneFile_new (documentDirectory : String) : (Device.new documentDirectory).OneFile :=
  ⟨rfl, fun _ _ => rfl⟩

theorem Disk.oneFile_device (disk : Disk) : disk.device.OneFile := by
  unfold Disk.device
  split_ifs
  · refine ⟨Function.update_self _ _ _, fun url hurl => ?_⟩
    have hne : url ≠ getDirectory (Device.new disk.documentDirectory) "test" := hurl
    exact Function.update_of_ne hne _ _
  · exact Device.oneFile_new disk.documentDirectory

/-- What a file holds is what was started last. -/
theorem Device.OneFile.read (h : device.OneFile) (file : URL) :
    device.read file =
      if file = getDirectory device "test" then device.recordings.getLast? else none := by
  unfold Device.read
  by_cases hfile : file = getDirectory device "test"
  · subst hfile
    rw [h.test, if_pos rfl, List.getLast?_eq_getElem?]
    by_cases hnil : device.recordings = []
    · rw [if_pos hnil, hnil]
      rfl
    · rw [if_neg hnil]
      rfl
  · rw [h.other file hfile, if_neg hfile]
    rfl

/-- A change that starts no recorder. -/
theorem Device.OneFile.same (h : device.OneFile)
    (hdirectory : device'.documentDirectory = device.documentDirectory)
    (hfiles : device'.files = device.files)
    (hlength : device'.recordings.length = device.recordings.length) : device'.OneFile := by
  have hfile : getDirectory device' "test" = getDirectory device "test" := by
    unfold getDirectory
    rw [hdirectory]
  have hnil : device'.recordings = [] ↔ device.recordings = [] := by
    rw [← List.length_eq_zero_iff, hlength, List.length_eq_zero_iff]
  constructor
  · simp only [hfile, hfiles, hlength, hnil]
    exact h.test
  · rw [hfile, hfiles]
    exact h.other

theorem startRecording_oneFile (h : device.OneFile) (v : RecordingView) (screen : ℕ)
    (starts : Bool) : (v.startRecording device screen starts).2.OneFile := by
  unfold startRecording
  split_ifs
  · refine ⟨?_, fun url hurl => ?_⟩
    · show Function.update device.files _ _ (getDirectory device "test") = _
      rw [Function.update_self]
      simp
    · show Function.update device.files _ _ url = none
      have hne : url ≠ getDirectory device "test" := hurl
      rw [Function.update_of_ne hne]
      exact h.other url hne
  · exact h

theorem stopRecording_oneFile (h : device.OneFile) (v : RecordingView) (screen : ℕ) :
    (v.stopRecording device screen).2.OneFile := by
  unfold stopRecording
  split
  · exact h.same rfl rfl (List.length_modify _ _ _)
  · exact h

theorem handle_oneFile (h : device.OneFile) (s : RegisterScreen) (screen : ℕ)
    (e : RegisterScreen.Event) : (s.handle device screen e).2.OneFile := by
  cases e with
  | didTapRecordButton view starts =>
    unfold RegisterScreen.handle RecordingView.didTapRecordButton
    dsimp only
    split_ifs
    · exact startRecording_oneFile h _ screen starts
    · exact stopRecording_oneFile h _ screen
  | _ => exact h

end device

/-! ## The sounds of an upload -/

/-- The registration screen on which the upload has been started. -/
def Origin.screen? : Origin → Option ℕ
  | .character screen => some screen
  | .dialogue screen => some screen
  | .conversation => none

/-- The recording was started and stopped on the screen of the upload. -/
def Origin.Recorded (origin : Origin) (recording : Recording) : Prop :=
  ∃ screen, origin.screen? = some screen ∧ recording.startedOn = some screen ∧
    recording.stoppedOn = some screen

namespace Client

/-- Every upload has put only what was recorded on its screen. -/
def OwnVoices (cl : Client) : Prop :=
  ∀ call ∈ cl.calls, ∀ recording ∈ call.sounds, call.origin.Recorded recording

/-- The condition on an event: when the file of the device is put, the recorder that was started last
has been started and stopped on the screen of the upload. -/
def PutsOwnVoice (cl : Client) : Event → Prop
  | .answer k o => ∀ call path next, cl.calls[k]? = some call →
      call.program = .call (.putFile path (getDirectory cl.device "test")) next → o.ok = true →
      ∀ recording, cl.device.recordings.getLast? = some recording →
        call.origin.Recorded recording
  | _ => True

variable {names : Names} {url : URLParser} {client : ℕ} {b b' : Backend} {cl cl' : Client}

theorem step_oneFile {e : Event} (h : cl.device.OneFile)
    (hstep : cl.step names url client b e = some (b', cl')) : cl'.device.OneFile := by
  cases step_cases hstep with
  | @onScreen screen s e => exact handle_oneFile h s screen e
  | answer hanswer =>
    obtain ⟨call, r, next, reply, -, -, -, call', -, rfl⟩ := answer_cases hanswer
    rw [runCompletion_device]
    exact h
  | _ => exact h

theorem mem_soundOf_iff {r : Request} {o : Outcome} {recording : Recording} :
    recording ∈ cl.soundOf r o ↔
      ∃ path file, r = .putFile path file ∧ o.ok = true ∧ cl.device.read file = some recording := by
  unfold soundOf
  cases r with
  | putFile path file =>
    by_cases hok : o.ok = true
    · simp [hok, Option.mem_toList]
    · simp [hok]
  | _ => simp

/-- An upload puts what was recorded last, and nothing else. -/
theorem mem_soundOf_last (h : cl.device.OneFile) {r : Request} {o : Outcome}
    {recording : Recording} :
    recording ∈ cl.soundOf r o ↔ ∃ path, r = .putFile path (getDirectory cl.device "test") ∧
      o.ok = true ∧ cl.device.recordings.getLast? = some recording := by
  rw [mem_soundOf_iff]
  constructor
  · rintro ⟨path, file, rfl, hok, hread⟩
    rw [h.read] at hread
    split_ifs at hread with hfile
    · subst hfile
      exact ⟨path, rfl, hok, hread⟩
  · rintro ⟨path, rfl, hok, hlast⟩
    refine ⟨path, _, rfl, hok, ?_⟩
    rw [h.read, if_pos rfl]
    exact hlast

theorem ownVoices_step {e : Event} (h : cl.device.OneFile) (hown : cl.OwnVoices)
    (hputs : cl.PutsOwnVoice e) (hstep : cl.step names url client b e = some (b', cl')) :
    cl'.OwnVoices := by
  intro call' hmem recording hrecording
  obtain ⟨k, hk⟩ := List.getElem?_of_mem hmem
  cases step_calls hstep hk with
  | kept hold => exact hown call' (List.mem_of_getElem? hold) recording hrecording
  | conversation _ hsounds =>
    rw [hsounds] at hrecording
    cases hrecording
  | character => cases hrecording
  | dialogue => cases hrecording
  | @resumed _ o call r next reply m hcall hprogram =>
    rcases List.mem_append.1 hrecording with hold | hnew
    · exact hown call (List.mem_of_getElem? hcall) recording hold
    · obtain ⟨path, rfl, hok, hlast⟩ := (mem_soundOf_last h).1 hnew
      exact hputs call path next hcall hprogram hok recording hlast

/-- Nothing takes a sound back. -/
theorem not_ownVoices_step {e : Event} (hnot : ¬ cl.OwnVoices)
    (hstep : cl.step names url client b e = some (b', cl')) : ¬ cl'.OwnVoices := by
  intro hown
  apply hnot
  intro call hmem recording hrecording
  obtain ⟨k, hk⟩ := List.getElem?_of_mem hmem
  rcases step_call hstep hk with ⟨o, rfl⟩ | hget
  · obtain ⟨r, next, reply, m, -, -, hget⟩ := answer_call hstep hk
    exact hown _ (List.mem_of_getElem? hget) recording (List.mem_append_left _ hrecording)
  · exact hown call (List.mem_of_getElem? hget) recording hrecording

theorem not_ownVoices_of_miss {e : Event} (h : cl.device.OneFile)
    (hstep : cl.step names url client b e = some (b', cl')) (hmiss : ¬ cl.PutsOwnVoice e) :
    ¬ cl'.OwnVoices := by
  cases e with
  | answer k o =>
    simp only [PutsOwnVoice, not_forall] at hmiss
    obtain ⟨call, path, next, hcall, hprogram, hok, recording, hlast, hother⟩ := hmiss
    obtain ⟨reply, m, -, hget⟩ := answer_program hstep hcall hprogram
    intro hown
    refine hother (hown _ (List.mem_of_getElem? hget) recording ?_)
    exact List.mem_append_right _ ((mem_soundOf_last h).2 ⟨path, rfl, hok, hlast⟩)
  | _ => exact absurd trivial hmiss

end Client

/-! ## The sounds in Storage -/

namespace Backend

/-- Storage holds the recording under a path of the upload. -/
def HoldsSound (names : Names) (b : Backend) (i : Owner) (recording : Recording) : Prop :=
  ∃ object ∈ b.objects, names.OwnsPath i object.path ∧ object.content = .recording recording

variable {names : Names} {i : Owner} {b b' : Backend}

theorem Rely.holdsSound_iff (h : Rely names i b b') (recording : Recording) :
    HoldsSound names b' i recording ↔ HoldsSound names b i recording := by
  constructor
  · rintro ⟨object, hmem, hown, hcontent⟩
    exact ⟨object, h.own_objects object hmem hown, hown, hcontent⟩
  · rintro ⟨object, hmem, hown, hcontent⟩
    exact ⟨object, h.objects object hmem, hown, hcontent⟩

theorem holdsSound_put {object : StorageObject} (hown : names.OwnsPath i object.path)
    (hfree : b.Free object.path) (recording : Recording) :
    HoldsSound names (b.put object) i recording ↔
      HoldsSound names b i recording ∨ object.content = .recording recording := by
  constructor
  · rintro ⟨object', hmem, hown', hcontent⟩
    rcases (mem_put_iff hfree).1 hmem with hmem | rfl
    · exact Or.inl ⟨object', hmem, hown', hcontent⟩
    · exact Or.inr hcontent
  · rintro (⟨object', hmem, hown', hcontent⟩ | hcontent)
    · exact ⟨object', (mem_put_iff hfree).2 (Or.inl hmem), hown', hcontent⟩
    · exact ⟨object, (mem_put_iff hfree).2 (Or.inr rfl), hown, hcontent⟩

/-- A request that meets its demands stores the sound that the client has read, and no other. -/
theorem perform_holdsSound {frozen isCharacter : Prop} {cl : Client} {o : Outcome} {r : Request}
    {reply : Reply r} (hd : Demands names frozen isCharacter i b r)
    (hperform : b.perform cl.create cl.device o r = some (b', reply)) (recording : Recording) :
    HoldsSound names b' i recording ↔
      HoldsSound names b i recording ∨ recording ∈ cl.soundOf r o := by
  have hsame : b'.objects = b.objects → (∀ path file, r ≠ .putFile path file) →
      (HoldsSound names b' i recording ↔
        HoldsSound names b i recording ∨ recording ∈ cl.soundOf r o) := by
    intro hobjects hno
    have hnone : recording ∉ cl.soundOf r o := by
      rw [Client.mem_soundOf_iff]
      rintro ⟨path, file, rfl, -⟩
      exact hno path file rfl
    unfold HoldsSound
    rw [hobjects]
    exact (or_iff_left hnone).symm
  cases r with
  | putFile path file =>
    rcases perform_putFile hperform with ⟨rfl, hread⟩ | ⟨recording', hok, hread, rfl⟩
    · have hnone : recording ∉ cl.soundOf (.putFile path file) o := by
        rw [Client.mem_soundOf_iff]
        rintro ⟨path, file, heq, hok, hsome⟩
        obtain ⟨rfl, rfl⟩ := Request.putFile.inj heq
        rw [hread hok] at hsome
        cases hsome
      exact (or_iff_left hnone).symm
    · rw [holdsSound_put hd.1 hd.2]
      apply or_congr_right
      constructor
      · intro heq
        obtain rfl := Content.recording.inj heq
        exact Client.mem_soundOf_iff.2 ⟨path, file, rfl, hok, hread⟩
      · intro hmem
        obtain ⟨path', file', heq, -, hread'⟩ := Client.mem_soundOf_iff.1 hmem
        obtain ⟨rfl, rfl⟩ := Request.putFile.inj heq
        rw [hread] at hread'
        obtain rfl := Option.some.inj hread'
        rfl
  | putData path data =>
    rcases perform_putData hperform with rfl | rfl
    · exact hsame rfl nofun
    · rw [holdsSound_put hd.1 hd.2]
      apply or_congr_right
      exact iff_of_false nofun List.not_mem_nil
  | animate => exact hsame (by rw [(perform_animate hperform).1]) nofun
  | downloadURL path => exact hsame (by rw [(perform_downloadURL hperform).1]) nofun
  | setData collection id data =>
    rcases perform_setData hperform with ⟨-, rfl⟩ | ⟨-, rfl⟩
    · exact hsame (objects_setData collection _) nofun
    · exact hsame rfl nofun
  | getDocuments collection => exact hsame (by rw [(perform_getDocuments hperform).1]) nofun

end Backend

namespace World

open Backend

variable {names : Names} {url : URLParser} {client : ℕ} {w w' : World}

/-- The sounds of the client's uploads are those that Storage holds under their paths. -/
def SoundsStored (names : Names) (client : ℕ) (w : World) : Prop :=
  ∀ (k : ℕ) (call : Call), (w.parts client).calls[k]? = some call → ∀ recording,
    HoldsSound names w.shared ⟨client, k⟩ recording ↔ recording ∈ call.sounds

/-- An upload that has just been started has put nothing. -/
theorem sounds_of_started {e : ℕ × Client.Event} {k : ℕ} {call : Call}
    (hstep : step names url w e = some w') (hnone : (w.parts client).calls[k]? = none)
    (hcall : (w'.parts client).calls[k]? = some call) : call.sounds = [] := by
  obtain ⟨client', e⟩ := e
  cases Client.step_calls (step_of_started hstep hnone hcall) hcall with
  | kept hold =>
    rw [hnone] at hold
    cases hold
  | conversation _ hsounds => exact hsounds
  | character => rfl
  | dialogue => rfl
  | resumed hold =>
    rw [hnone] at hold
    cases hold

theorem soundsStored_step {e : ℕ × Client.Event} (h : w.Inv names False False)
    (hstored : w.SoundsStored names client) (hstep : step names url w e = some w') :
    w'.SoundsStored names client := by
  intro k call' hcall' recording
  rcases answers_or_other ⟨client, k⟩ e with ⟨o, rfl⟩ | hother
  · obtain ⟨hclient, -⟩ := Shared.advance_eq_some hstep
    obtain ⟨call, -, -, -, hcall, -⟩ := Client.answer_cases hclient
    obtain ⟨r, next, reply, m, hprogram, hperform, hget⟩ := Client.answer_call hclient hcall
    obtain rfl := Option.some.inj (hcall'.symm.trans hget)
    have hdemands := ((h.2 client).calls k call hcall).demands h.1 hprogram
    rw [perform_holdsSound hdemands hperform, hstored k call hcall]
    exact List.mem_append.symm
  · rw [(step_rely h hstep ⟨client, k⟩ hother).holdsSound_iff]
    cases hcall : (w.parts client).calls[k]? with
    | some call =>
      have hget := step_call (i := ⟨client, k⟩) hstep hcall hother
      obtain rfl := Option.some.inj (hcall'.symm.trans hget)
      exact hstored k call' hcall recording
    | none =>
      rw [sounds_of_started hstep hcall hcall']
      refine iff_of_false ?_ List.not_mem_nil
      rintro ⟨object, hmem, hown, -⟩
      have huntouched := (h.2 client).fresh k (List.getElem?_eq_none_iff.1 hcall)
      exact huntouched.2 object.path hown object hmem rfl

/-- Every sound file that an upload of the client has put into Storage was recorded on the
registration screen of that upload. -/
def CarriesOwnVoices (names : Names) (client : ℕ) (w : World) : Prop :=
  ∀ (k : ℕ) (call : Call), (w.parts client).calls[k]? = some call → ∀ recording,
    HoldsSound names w.shared ⟨client, k⟩ recording → call.origin.Recorded recording

theorem carriesOwnVoices_iff (h : w.SoundsStored names client) :
    w.CarriesOwnVoices names client ↔ (w.parts client).OwnVoices := by
  constructor
  · intro hcarries call hmem recording hrecording
    obtain ⟨k, hk⟩ := List.getElem?_of_mem hmem
    exact hcarries k call hk recording ((h k call hk recording).2 hrecording)
  · intro hown k call hk recording hholds
    exact hown call (List.mem_of_getElem? hk) recording ((h k call hk recording).1 hholds)

variable {disks : ℕ → Disk}

theorem soundsStored_of_run {es : List (ℕ × Client.Event)}
    (hrun : run names url (init disks) es = some w) : w.SoundsStored names client := by
  have hlast : w.Inv names False False ∧ w.SoundsStored names client := by
    refine run_invariant (I := fun w => w.Inv names False False ∧ w.SoundsStored names client) ?_
      ⟨inv_init disks, nofun⟩ hrun
    intro w e w' h hstep
    exact ⟨step_inv_false w e w' h.1 hstep, soundsStored_step h.1 h.2 hstep⟩
  exact hlast.2

/-- While the last recording is one of the upload's screen, every answer meets the condition. -/
theorem putsOwnVoice_of_last {cl : Client} {k : ℕ} {o : Outcome} {origin : Origin}
    {recording : Recording} (h : cl.calls[k]?.map (·.origin) = some origin)
    (hlast : cl.device.recordings.getLast? = some recording) (hown : origin.Recorded recording) :
    cl.PutsOwnVoice (.answer k o) := by
  intro call path next hcall _ _ recording' hlast'
  obtain rfl := Option.some.inj (hlast.symm.trans hlast')
  rw [hcall] at h
  obtain rfl := Option.some.inj h
  exact hown

/-- In every run and for every client, the lines carry the voices recorded for them exactly when each
upload puts a voice of its own screen. -/
theorem carriesOwnVoices_run_iff (client : ℕ) (es : List (ℕ × Client.Event)) (w : World)
    (hrun : run names url (init disks) es = some w) :
    w.CarriesOwnVoices names client ↔
      AllSteps (step names url) (fun w e => e.1 = client → (w.parts client).PutsOwnVoice e.2)
        (init disks) es := by
  rw [carriesOwnVoices_iff (soundsStored_of_run hrun)]
  exact Shared.run_part_iff (fun _ _ _ _ _ h hstep => Client.step_oneFile h hstep)
    (fun _ _ _ _ _ h hown hok hstep => Client.ownVoices_step h hown hok hstep)
    (fun _ _ _ _ _ h hstep hmiss => Client.not_ownVoices_of_miss h hstep hmiss)
    (fun _ _ _ _ _ _ hnot hstep => Client.not_ownVoices_step hnot hstep)
    (fun _ _ hown => hown) (fun _ _ hnot => hnot) (Disk.oneFile_device _) nofun hrun

theorem carriesOwnVoices_sample :
    ∃ w, run Names.letters URLParser.nonempty (init fun _ => .new "documents") registerCharacter =
        some w ∧
      w.shared.dialogues.length = 1 ∧ w.CarriesOwnVoices Names.letters 0 := by
  have hrun : ∃ w, run Names.letters URLParser.nonempty (init fun _ => .new "documents")
      registerCharacter = some w ∧ w.shared.dialogues.length = 1 := ⟨_, rfl, rfl⟩
  obtain ⟨w, hrun, hone⟩ := hrun
  refine ⟨w, hrun, hone, (carriesOwnVoices_run_iff 0 _ w hrun).2 ?_⟩
  refine allSteps_cons rfl (fun _ => trivial) (allSteps_cons rfl (fun _ => trivial) ?_)
  refine allSteps_cons rfl (fun _ => trivial) (allSteps_cons rfl (fun _ => trivial) ?_)
  refine allSteps_cons rfl (fun _ => trivial) ?_
  -- the voice has been recorded on screen 0
  refine allSteps_cons rfl (fun _ => putsOwnVoice_of_last rfl rfl ⟨0, rfl, rfl, rfl⟩) ?_
  refine allSteps_cons rfl (fun _ => putsOwnVoice_of_last rfl rfl ⟨0, rfl, rfl, rfl⟩) ?_
  refine allSteps_cons rfl (fun _ => putsOwnVoice_of_last rfl rfl ⟨0, rfl, rfl, rfl⟩) ?_
  refine allSteps_cons rfl (fun _ => putsOwnVoice_of_last rfl rfl ⟨0, rfl, rfl, rfl⟩) ?_
  refine allSteps_cons rfl (fun _ => putsOwnVoice_of_last rfl rfl ⟨0, rfl, rfl, rfl⟩) ?_
  refine allSteps_cons rfl (fun _ => putsOwnVoice_of_last rfl rfl ⟨0, rfl, rfl, rfl⟩) ?_
  refine allSteps_cons rfl (fun _ => putsOwnVoice_of_last rfl rfl ⟨0, rfl, rfl, rfl⟩) ?_
  exact allSteps_cons rfl (fun _ => putsOwnVoice_of_last rfl rfl ⟨0, rfl, rfl, rfl⟩) trivial

/-- A voice is recorded on one screen; the next screen registers with a typed text. -/
def registerBorrowedVoice : List (ℕ × Client.Event) :=
  [(0, .showRegisterViewController),
   (0, .onScreen 0 (.didTapRecordButton 0 true)), (0, .onScreen 0 (.didTapRecordButton 0 true)),
   (0, .didTapBackButton 0), (0, .showRegisterViewController),
   (0, .onScreen 1 (.didFinishPicking ⟨some [1]⟩)),
   (0, .onScreen 1 (.textViewDidChange 0 "text")), (0, .register 1 0),
   (0, .answer 0 (success "image url" [])), (0, .answer 0 (success "" [])),
   (0, .answer 0 (success "audio url" [])), (0, .answer 0 (success "" [])),
   (0, .answer 0 (success "" [])), (0, .answer 0 (success "" []))]

theorem not_carriesOwnVoices_registerBorrowedVoice :
    ∃ w, run Names.letters URLParser.nonempty (init fun _ => .new "documents") registerBorrowedVoice =
        some w ∧
      w.shared.dialogues.length = 1 ∧ ¬ w.CarriesOwnVoices Names.letters 0 := by
  have hrun : ∃ w call image sound, run Names.letters URLParser.nonempty
      (init fun _ => .new "documents") registerBorrowedVoice = some w ∧
      w.shared.dialogues.length = 1 ∧ (w.parts 0).calls[0]? = some call ∧
      call.origin = .character 1 ∧ w.shared.objects = [image, sound] ∧
      sound.path = DataUploader.audioPath (Names.letters.uuid ⟨0, 0, 0⟩) ∧
      sound.content = .recording ⟨some 0, some 0⟩ :=
    ⟨_, _, _, _, rfl, rfl, rfl, rfl, rfl, rfl, rfl⟩
  obtain ⟨w, call, image, sound, hrun, hone, hcall, horigin, hobjects, hpath, hcontent⟩ := hrun
  refine ⟨w, hrun, hone, fun hcarries => ?_⟩
  have hmem : sound ∈ w.shared.objects := by
    rw [hobjects]
    exact List.mem_cons_of_mem _ (List.mem_singleton_self sound)
  have hholds : HoldsSound Names.letters w.shared ⟨0, 0⟩ ⟨some 0, some 0⟩ :=
    ⟨sound, hmem, ⟨_, ⟨0, rfl⟩, Or.inr hpath⟩, hcontent⟩
  obtain ⟨screen, hscreen, hstarted, -⟩ := hcarries 0 call hcall _ hholds
  rw [horigin] at hscreen
  obtain rfl := Option.some.inj hscreen
  exact absurd (Option.some.inj hstarted) Nat.zero_ne_one

end World

end DialogueApp
