import DialogueApp.API.Backend
import DialogueApp.Controllers.CreateChatUpload
import DialogueApp.Controllers.RegisterScreen
import Mathlib.Data.List.Count

/-!
# One client

The app on one device: the create screen, the registration screens pushed on it so far, the shared
loader, and the uploads in flight.  `Client.step` takes one event, a touch or the answer to the
request an upload waits for.
-/

namespace DialogueApp

/-- The place of a draw of a fresh name: the client, its upload, and the callback of the upload. -/
structure Draw where
  client : ℕ
  call : ℕ
  callback : ℕ
  deriving DecidableEq, Repr

/-- The automatic document ids and the `UUID`s, of which no two draws give the same one; and `==` on
the names that were typed. -/
structure Names where
  documentID : Draw → String
  uuid : Draw → String
  sameName : String → String → Bool
  documentID_injective : Function.Injective documentID
  uuid_injective : Function.Injective uuid

/-- The place of a draw, written in letters. -/
def Draw.letters (d : Draw) : String :=
  String.ofList (List.replicate d.client 'a' ++ List.replicate d.call 'b' ++
    List.replicate d.callback 'c')

theorem Draw.letters_injective : Function.Injective Draw.letters := by
  intro d e h
  have hl := String.ofList_injective h
  have hclient := congrArg (List.count 'a') hl
  have hcall := congrArg (List.count 'b') hl
  have hcallback := congrArg (List.count 'c') hl
  simp [List.count_replicate] at hclient hcall hcallback
  cases d
  cases e
  rw [Draw.mk.injEq]
  exact ⟨hclient, hcall, hcallback⟩

/-- There are such names. -/
def Names.letters : Names where
  documentID := Draw.letters
  uuid := Draw.letters
  sameName := (· == ·)
  documentID_injective := Draw.letters_injective
  uuid_injective := Draw.letters_injective

/-- What has started an upload. -/
inductive Origin
  /-- The register tap of the registration screen with this number, for a new character. -/
  | character (screen : ℕ)
  /-- The register tap of the registration screen with this number, for a further line. -/
  | dialogue (screen : ℕ)
  /-- The register button of the create screen. -/
  | conversation
  deriving DecidableEq, Repr

/-- What an upload hands to its completion. -/
inductive Completion
  | newInfo (newInfo : NewInfo)
  | dialogues (dialogues : List Dialogue)
  | conversation

/-- An upload that has been started. -/
structure Call where
  origin : Origin
  program : Running Completion
  /-- The callbacks that have run. -/
  callbacks : ℕ
  /-- How often the completion has run. -/
  completions : ℕ
  /-- The sound files it has put into Storage. -/
  sounds : List Recording

/-- The upload after a callback: it waits for a further request, has called its completion or has
returned early. -/
def Call.resume (call : Call) (program : Running Completion) (sounds : List Recording) : Call where
  origin := call.origin
  program := program
  callbacks := call.callbacks + 1
  completions := call.completions + if program.finished then 1 else 0
  sounds := call.sounds ++ sounds

/-- What a launch of the app finds on its device. -/
structure Disk where
  documentDirectory : String
  /-- An earlier launch has left a recording in `test.m4a`. -/
  recorded : Bool
  /-- `UserDefaults.standard.integer(forKey: "color")`, which is only ever set to these. -/
  colorNumber : Fin 6

namespace Disk

/-- The disk at the first launch. -/
def new (documentDirectory : String) : Disk := ⟨documentDirectory, false, 0⟩

/-- The device at the launch. -/
def device (disk : Disk) : Device :=
  let device := Device.new disk.documentDirectory
  if disk.recorded then
    { device with
      recordings := [⟨none, none⟩]
      files := Function.update device.files (RecordingView.getDirectory device "test") (some 0) }
  else device

end Disk

/-- One running app: its create screen, its registration screens and its uploads. -/
structure Client where
  create : CreateChatController
  /-- `UserDefaults.standard.integer(forKey: "color")` -/
  colorNumber : Int
  /-- The registration screens opened so far. -/
  screens : List RegisterScreen
  device : Device
  /-- `UIViewController.hud` is shown. -/
  loaderShown : Bool
  /-- The image pickers whose presentation is still going on. -/
  pickersOpening : ℕ
  calls : List Call

namespace Client

/-- The app after the create screen has first been presented. -/
def launched (disk : Disk) : Client where
  create := CreateChatController.presented
  colorNumber := disk.colorNumber.val
  screens := []
  device := disk.device
  loaderShown := false
  pickersOpening := 0
  calls := []

/-- What a callback of the client's upload can read. -/
def moment (names : Names) (client : ℕ) (cl : Client) (call callback : ℕ) (now : Timestamp) :
    Moment where
  now := now
  documentID := names.documentID ⟨client, call, callback⟩
  uuid := names.uuid ⟨client, call, callback⟩
  colorNumber := cl.colorNumber

/-- `showLoader(_:)` -/
def showLoader (cl : Client) (shown : Bool) : Client := { cl with loaderShown := shown }

/-- `navigationController?.popToRootViewController`, on the screen with the given number. -/
def popToRoot (cl : Client) (screen : ℕ) : Client :=
  if (cl.screens[screen]?.any (·.onStack)) then
    { cl with screens := cl.screens.map fun s => { s with onStack := false } }
  else cl

/-- Start an upload. -/
def startCall (names : Names) (client : ℕ) (cl : Client) (origin : Origin)
    (program : Program Completion) (now : Timestamp) : Client :=
  { cl with
    calls := cl.calls ++
      [{ origin, program := program.run (cl.moment names client cl.calls.length 0 now),
         callbacks := 0, completions := 0, sounds := [] }] }

/-- `RegisterViewController.uploadDialogue()` -/
def uploadCharacter (names : Names) (client : ℕ) (cl : Client) (screen : ℕ) (s : RegisterScreen)
    (now : Timestamp) : Client :=
  let cl := cl.showLoader true
  let characterItem : CharacterItem :=
    { image := s.selectedImage, audio := s.audioUrl, text := s.audioText, name := s.nameText }
  cl.startCall names client (.character screen)
    (.newInfo <$> CharacterService.uploadCharacter characterItem) now

/-- `RegisterDialogueController.uploadDialogue()` -/
def uploadDialogue (names : Names) (client : ℕ) (cl : Client) (screen : ℕ) (s : RegisterScreen)
    (characterInfo : Option CharacterInfo) (now : Timestamp) : Client :=
  let cl := cl.showLoader true
  match characterInfo with
  | none => cl
  | some info =>
    let dialogueItem : DialogueItem :=
      { id := info.id, imageUrl := info.imageUrl.absoluteString, audio := s.audioUrl,
        text := s.audioText, character := info.name }
    cl.startCall names client (.dialogue screen)
      (.dialogues <$> DialogueService.uploadDialogue dialogueItem) now

/-- The register tap of a registration screen on the stack. -/
def register (names : Names) (client : ℕ) (cl : Client) (screen : ℕ) (now : Timestamp) :
    Option Client :=
  match cl.screens[screen]? with
  | some s =>
    if s.onStack then
      match s.kind with
      | .character => some (cl.uploadCharacter names client screen s now)
      | .dialogue characterInfo _ =>
        some (cl.uploadDialogue names client screen s characterInfo now)
    else none
  | none => none

/-- `didTapAddDialogueButton()` of the create screen. -/
def didTapAddDialogueButton (url : URLParser) (cl : Client) : Client :=
  match cl.create.selectedCharacter with
  | none => cl
  | some selectedCharacter =>
    match url.parse selectedCharacter.imageUrl with
    | none => cl
    | some imageUrl =>
      let characterInfo : CharacterInfo :=
        { id := selectedCharacter.characterID, imageUrl, name := selectedCharacter.character }
      { cl with screens := cl.screens ++
          [RegisterScreen.new (.dialogue (some characterInfo) selectedCharacter)] }

/-- `showRegisterViewController()` of the create screen. -/
def showRegisterViewController (cl : Client) : Client :=
  { cl with screens := cl.screens ++ [RegisterScreen.new .character] }

/-- The completion of an upload. -/
def complete (names : Names) (cl : Client) (origin : Origin) (completion : Completion) : Client :=
  match origin, completion with
  | .character screen, .newInfo newInfo =>
    { cl with create := cl.create.updateCharacter names.sameName newInfo }.showLoader false
      |>.popToRoot screen
  | .dialogue screen, .dialogues dialogues =>
    match cl.screens[screen]?.map RegisterScreen.kind with
    | some (RegisterScreen.Kind.dialogue _ selectedCharacter) =>
      { cl with create := cl.create.addedDialogue dialogues selectedCharacter }.showLoader false
        |>.popToRoot screen
    | _ => cl
  | _, _ => cl

/-- The sound file a request has put, if it did. -/
def soundOf (cl : Client) (r : Request) (o : Outcome) : List Recording :=
  match r with
  | .putFile _ file => if o.ok then (cl.device.read file).toList else []
  | _ => []

/-- `returnCellColor()` stores the next number when a conversation is written. -/
def nextColor (cl : Client) : Request → Int
  | .animate => (ChatService.returnCellColor cl.colorNumber).2
  | _ => cl.colorNumber

/-- The completion of an upload, if the upload has come to it. -/
def runCompletion (names : Names) (cl : Client) (call : Call) : Client :=
  match call.program with
  | .done (completion, _) => cl.complete names call.origin completion
  | _ => cl

/-- The answer to the request that an upload waits for. -/
def answer (names : Names) (client : ℕ) (b : Backend) (cl : Client) (k : ℕ) (o : Outcome) :
    Option (Backend × Client) :=
  match cl.calls[k]? with
  | none => none
  | some call =>
    match call.program with
    | .call r next =>
      (b.perform cl.create cl.device o r).map fun (b, reply) =>
        let program := next (reply, cl.moment names client k (call.callbacks + 1) o.now)
        let call := call.resume program (cl.soundOf r o)
        (b, { cl with colorNumber := cl.nextColor r
                      calls := cl.calls.set k call }.runCompletion names call)
    | _ => none

/-! ## Events -/

/-- A tap, an edit, or a callback on one client. -/
inductive Event
  /-- The answer to the `fetchCharacter` of `viewDidLoad`. -/
  | fetchCharacters (found : List ℕ) (now : Timestamp)
  /-- The answer to the `fetchDialogue` of `viewDidLoad`. -/
  | fetchDialogues (found : List ℕ) (now : Timestamp)
  /-- A tap on a cell of the character list. -/
  | selectCharacter (cell : ℕ)
  | didSelectRow (row : ℕ)
  /-- `defaultUI`, when the create button presents the screen again. -/
  | defaultUI (onScreen : ℕ → Bool)
  | editTitle (text : String)
  | showKeyboard (height : Rat)
  | didTapRegisterButton (now : Timestamp)
  | didTapAddDialogueButton
  | showRegisterViewController
  /-- `didTapBackButton` of a registration screen. -/
  | didTapBackButton (screen : ℕ)
  | onScreen (screen : ℕ) (e : RegisterScreen.Event)
  /-- The register tap of a registration screen. -/
  | register (screen : ℕ) (now : Timestamp)
  /-- `didTapCharactorButton`: the loader is shown until the image picker is on screen. -/
  | didTapCharactorButton (screen : ℕ)
  | pickerPresented
  | answer (call : ℕ) (o : Outcome)

/-- An event of the create screen. -/
def onCreate (names : Names) (b : Backend) (cl : Client) (e : CreateChatController.Event) :
    Option (Backend × Client) :=
  (cl.create.step names.sameName e).map fun create => (b, { cl with create })

/-- Change the registration screen with the given number, if it is on the stack. -/
def withScreen (b : Backend) (cl : Client) (screen : ℕ) (f : RegisterScreen → Client) :
    Option (Backend × Client) :=
  match cl.screens[screen]? with
  | some s => if s.onStack then some (b, f s) else none
  | none => none

/-- One event of a client and what it does to the store; `none` where it cannot happen, or traps. -/
def step (names : Names) (url : URLParser) (client : ℕ) (b : Backend) (cl : Client) :
    Event → Option (Backend × Client)
  | .fetchCharacters found now =>
    cl.onCreate names b (.fetchCharacters
      ((b.find .characters found).map fun document => Character.init document.data now))
  | .fetchDialogues found now =>
    cl.onCreate names b (.fetchDialogues
      ((b.find .dialogues found).map fun document => Dialogue.init document.data now))
  | .selectCharacter cell =>
    match cl.create.listCharacters[cell]? with
    | some character => cl.onCreate names b (.selectCharacter character)
    | none => none
  | .didSelectRow row => cl.onCreate names b (.didSelectRow row)
  | .defaultUI onScreen => cl.onCreate names b (.defaultUI onScreen)
  | .editTitle text => cl.onCreate names b (.editTitle text)
  | .showKeyboard height => cl.onCreate names b (.showKeyboard height)
  | .didTapRegisterButton now =>
    if cl.create.registerButtonHidden then none
    else
      let (create, program) := cl.create.didTapRegisterButton
      some (b, { cl with create }.startCall names client .conversation
        ((fun _ => .conversation) <$> program) now)
  | .didTapAddDialogueButton =>
    if cl.create.addDialogueButtonHidden then none
    else some (b, cl.didTapAddDialogueButton url)
  | .showRegisterViewController => some (b, cl.showRegisterViewController)
  | .didTapBackButton screen =>
    cl.withScreen b screen fun s =>
      { cl with screens := cl.screens.set screen { s with onStack := false } }
  | .onScreen screen e =>
    match cl.screens[screen]? with
    | some s =>
      if e.isTouch && !s.onStack then none
      else
        let (s, device) := s.handle cl.device screen e
        some (b, { cl with screens := cl.screens.set screen s, device })
    | none => none
  | .register screen now => (cl.register names client screen now).map fun cl => (b, cl)
  | .didTapCharactorButton screen =>
    cl.withScreen b screen fun _ =>
      { cl.showLoader true with pickersOpening := cl.pickersOpening + 1 }
  | .pickerPresented =>
    if cl.pickersOpening = 0 then none
    else some (b, { cl.showLoader false with pickersOpening := cl.pickersOpening - 1 })
  | .answer k o => cl.answer names client b k o

end Client

end DialogueApp
