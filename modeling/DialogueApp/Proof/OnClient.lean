import DialogueApp.World

/-!
# A registration screen on its client

What a registration screen does on top of the screens of a client, whatever it looks like: its events
and its register taps are those of the client, and a run of the screen is a run of the world.
-/

namespace DialogueApp

open Runs

namespace RegisterScreen

/-- The recording view an event is about. -/
def Event.view : Event → Option ℕ
  | .didTapRecordButton view _ => some view
  | .recognize view _ => some view
  | .textViewDidChange view _ => some view
  | _ => none

/-- An event leaves the views it is not about alone, and the screen on the stack. -/
theorem handle_keeps (s : RegisterScreen) (device : Device) (number : ℕ) (e : Event) :
    (s.handle device number e).1.onStack = s.onStack ∧
      ∀ n, e.view ≠ some n →
        (s.handle device number e).1.recordingViews n = s.recordingViews n := by
  have hother : ∀ view n (v : RecordingView), some view ≠ some n →
      Function.update s.recordingViews view v n = s.recordingViews n := by
    intro view n v h
    exact Function.update_of_ne (fun heq => h (congrArg some heq.symm)) _ _
  cases e with
  | didTapRecordButton view starts =>
    simp only [handle]
    generalize (s.recordingViews view).didTapRecordButton device number starts = result
    obtain ⟨v, device', report⟩ := result
    cases report with
    | none => exact ⟨rfl, fun n h => hother view n v h⟩
    | some info => exact ⟨rfl, fun n h => hother view n v h⟩
  | recognize view dialogue => exact ⟨rfl, fun n h => hother view n _ h⟩
  | textViewDidChange view text => exact ⟨rfl, fun n h => hother view n _ h⟩
  | didChangeText text => exact ⟨rfl, fun _ _ => rfl⟩
  | didFinishPicking image => exact ⟨rfl, fun _ _ => rfl⟩

end RegisterScreen

namespace Client

/-- The client is `cl` with the registration screen on top of its screens and the calls it has
started; nothing else but the loader has changed. -/
structure OnTop (cl : Client) (screen : RegisterScreen) (device : Device) (calls : List Call)
    (cl' : Client) : Prop where
  create : cl'.create = cl.create
  screens : cl'.screens = cl.screens ++ [screen]
  device : cl'.device = device
  calls : cl'.calls = cl.calls ++ calls

variable {names : Names} {url : URLParser} {client : ℕ} {b : Backend} {cl cl' : Client}
  {screen : RegisterScreen} {device : Device} {calls : List Call}

theorem OnTop.get (h : OnTop cl screen device calls cl') :
    cl'.screens[cl.screens.length]? = some screen := by
  rw [h.screens]
  simp

/-- An event of the screen is one of the client. -/
theorem OnTop.onScreen (h : OnTop cl screen device calls cl') (hstack : screen.onStack = true)
    (e : RegisterScreen.Event) {screen' : RegisterScreen} {device' : Device}
    (hhandle : screen.handle device cl.screens.length e = (screen', device')) :
    ∃ cl'', cl'.step names url client b (.onScreen cl.screens.length e) = some (b, cl'') ∧
      OnTop cl screen' device' calls cl'' := by
  refine ⟨{ cl' with screens := cl.screens ++ [screen'], device := device' }, ?_, h.create, rfl, rfl,
    h.calls⟩
  simp [step, hstack, h.device, h.screens, hhandle]

/-- The upload is one that the screen has started with the program, and waits for its first answer. -/
def Started (origin : Origin) (program : Program Completion) (call : Call) : Prop :=
  call.origin = origin ∧ call.callbacks = 0 ∧ call.completions = 0 ∧ call.sounds = [] ∧
    ∃ m, call.program = program.run m

theorem startCall_calls (names : Names) (client : ℕ) (cl : Client) (origin : Origin)
    (program : Program Completion) (now : Timestamp) :
    ∃ call, (cl.startCall names client origin program now).calls = cl.calls ++ [call] ∧
      Started origin program call :=
  ⟨_, rfl, rfl, rfl, rfl, rfl, _, rfl⟩

/-- A register tap of the screen starts the upload of a character. -/
theorem OnTop.registerCharacter (h : OnTop cl screen device calls cl')
    (hstack : screen.onStack = true) (hkind : screen.kind = .character) (now : Timestamp) :
    ∃ cl'' call, cl'.step names url client b (.register cl.screens.length now) = some (b, cl'') ∧
      OnTop cl screen device (calls ++ [call]) cl'' ∧
      Started (.character cl.screens.length) (.newInfo <$> CharacterService.uploadCharacter
        { image := screen.selectedImage, audio := screen.audioUrl, text := screen.audioText
          name := screen.nameText }) call := by
  obtain ⟨call, hcall, hstarted⟩ := startCall_calls names client (cl'.showLoader true)
    (.character cl.screens.length) (.newInfo <$> CharacterService.uploadCharacter
      { image := screen.selectedImage, audio := screen.audioUrl, text := screen.audioText
        name := screen.nameText }) now
  refine ⟨cl'.uploadCharacter names client cl.screens.length screen now, call, ?_,
    ⟨h.create, h.screens, h.device, ?_⟩, hstarted⟩
  · simp [step, register, h.get, hstack, hkind]
  · rw [← List.append_assoc, ← h.calls]
    exact hcall

/-- A register tap of the screen starts the upload of a line. -/
theorem OnTop.registerDialogue (h : OnTop cl screen device calls cl')
    (hstack : screen.onStack = true) {info : CharacterInfo} {selected : Character}
    (hkind : screen.kind = .dialogue (some info) selected) (now : Timestamp) :
    ∃ cl'' call, cl'.step names url client b (.register cl.screens.length now) = some (b, cl'') ∧
      OnTop cl screen device (calls ++ [call]) cl'' ∧
      Started (.dialogue cl.screens.length) (.dialogues <$> DialogueService.uploadDialogue
        { id := info.id, imageUrl := info.imageUrl.absoluteString, audio := screen.audioUrl
          text := screen.audioText, character := info.name }) call := by
  obtain ⟨call, hcall, hstarted⟩ := startCall_calls names client (cl'.showLoader true)
    (.dialogue cl.screens.length) (.dialogues <$> DialogueService.uploadDialogue
      { id := info.id, imageUrl := info.imageUrl.absoluteString, audio := screen.audioUrl
        text := screen.audioText, character := info.name }) now
  refine ⟨cl'.uploadDialogue names client cl.screens.length screen (some info) now, call, ?_,
    ⟨h.create, h.screens, h.device, ?_⟩, hstarted⟩
  · simp [step, register, h.get, hstack, hkind]
  · rw [← List.append_assoc, ← h.calls]
    exact hcall

end Client

namespace World

/-- Where each step of a screen is a run of its client around the same store, so is a run of the screen
after the event that opens it. -/
theorem run_screen (names : Names) (url : URLParser) (client : ℕ) (w : World) {σ ε : Type}
    {screenStep : σ → ε → Option σ} (events : σ → ε → List Client.Event) {R : σ → Client → Prop}
    (opening : Client.Event) {cl₀ : Client} {s₀ s : σ} {es : List ε}
    (hopening : (w.parts client).step names url client w.shared opening = some (w.shared, cl₀))
    (hopen : R s₀ cl₀)
    (hstep : ∀ s cl e s', R s cl → screenStep s e = some s' →
      ∃ cl', Runs.run (fun p e => Client.step names url client p.1 p.2 e) (w.shared, cl)
        (events s e) = some (w.shared, cl') ∧ R s' cl')
    (hrun : Runs.run screenStep s₀ es = some s) :
    ∃ cl', run names url w ((opening :: trace screenStep events s₀ es).map (client, ·)) =
        some ⟨w.shared, Function.update w.parts client cl'⟩ ∧ R s cl' := by
  have hsimulates : ∃ p : Backend × Client,
      Runs.run (fun p e => Client.step names url client p.1 p.2 e) (w.shared, cl₀)
        (trace screenStep events s₀ es) = some p ∧ p.1 = w.shared ∧ R s p.2 := by
    refine run_simulates (R := fun s (p : Backend × Client) => p.1 = w.shared ∧ R s p.2)
      (t := (w.shared, cl₀)) (fun s p e s' hR hs => ?_) ⟨rfl, hopen⟩ hrun
    obtain ⟨b, cl⟩ := p
    obtain ⟨rfl, hR⟩ := hR
    obtain ⟨cl', hclient, hR'⟩ := hstep s cl e s' hR hs
    exact ⟨(w.shared, cl'), hclient, rfl, hR'⟩
  obtain ⟨⟨b, cl'⟩, hclient, hb, hR⟩ := hsimulates
  obtain rfl : b = w.shared := hb
  refine ⟨cl', Shared.run_of_part ?_, hR⟩
  exact run_cons_eq_some.2 ⟨(w.shared, cl₀), hopening, hclient⟩

end World

end DialogueApp
