import DialogueApp.Lib.Playback
import DialogueApp.View.ChatView

/-!
# The chat screen

`ChatViewController` once it has been made: the chat view, the clips, the player and the start
button.  The start timer keeps the controller alive, so it fires also when the screen has been
closed.  A finish callback is that of the player the screen holds, and of no other: a player that has
been replaced or stopped reports nothing.

Whether a clip can be loaded is decided when the load is tried.  All rows of the chat view are on
screen.
-/

namespace DialogueApp

/-- The images of the start button. -/
inductive StartImage
  | start | square
  deriving DecidableEq, Repr

/-- `ChatViewController` -/
structure ChatPlayer where
  chatView : ChatView
  audioUrls : List URL
  /-- `audio`, whose clip is the index in `audioUrls` it was loaded from. -/
  audio : Playback ℕ
  playNum : ℕ
  isPlaying : Bool
  /-- The image of `topView.startButton`. -/
  startImage : StartImage
  /-- The rows of the cells whose pulse layer is shown and animated. -/
  pulsing : List ℕ
  /-- The start timer has not fired yet. -/
  timerPending : Bool
  /-- The screen has been closed. -/
  closed : Bool

namespace ChatPlayer

/-- The controller as `init` leaves it. -/
def opened (chat : Chat) (audioUrls : List URL) : ChatPlayer where
  chatView := ⟨some chat⟩
  audioUrls := audioUrls
  audio := .new
  playNum := 0
  isPlaying := false
  startImage := .square
  pulsing := []
  timerPending := true
  closed := false

/-- `init(conversation:colors:selectedCell:)`; `none` is the trap of `URL(string: $0)!`. -/
def init (url : URLParser) (conversation : Conversation) (colors : ChatViewColors) :
    Option ChatPlayer := do
  let audioUrls ← conversation.audioUrls.mapM url.parse
  return opened { conversation, color := colors } audioUrls

/-- `chatView.collectionView.cellForItem(at:)` is not `nil`. -/
def hasCell (s : ChatPlayer) (item : ℕ) : Bool := decide (item < s.chatView.numberOfItemsInSection)

/-- Show the pulse of the cell at `playNum`, if there is one. -/
def startPulseAnimation (s : ChatPlayer) : ChatPlayer :=
  if s.hasCell s.playNum then { s with pulsing := s.pulsing.insert s.playNum } else s

/-- Hide the pulse of the cell at `playNum`, if there is one. -/
def stopPulseAnimation (s : ChatPlayer) : ChatPlayer :=
  if s.hasCell s.playNum then { s with pulsing := s.pulsing.filter (· ≠ s.playNum) } else s

/-- `prepareAudio(num:)`, where a load that is tried ends as `loads` says.  `none` is the trap of
`audioUrls[playNum]`. -/
def prepareAudio (s : ChatPlayer) (num : ℕ) (loads : Bool) : Option (Bool × ChatPlayer) :=
  if num < s.audioUrls.length then
    match s.audioUrls[s.playNum]? with
    | none => none
    | some _ =>
      if loads then some (true, { s with audio := s.audio.load s.playNum }) else some (false, s)
  else some (false, s)

/-- The block of the start timer. -/
def timerFired (s : ChatPlayer) (loads : Bool) : Option ChatPlayer := do
  let (prepared, s) ← s.prepareAudio s.playNum loads
  if prepared then
    let s := s.startPulseAnimation
    return { s with audio := s.audio.play }
  else return s

/-- `audioPlayerDidFinishPlaying` -/
def audioPlayerDidFinishPlaying (s : ChatPlayer) (loads : Bool) : Option ChatPlayer := do
  let s := s.stopPulseAnimation
  let s := { s with playNum := s.playNum + 1 }
  let s := s.startPulseAnimation
  let (prepared, s) ← s.prepareAudio s.playNum loads
  if prepared then return { s with audio := s.audio.play }
  else return { s with playNum := 0, startImage := .start }

/-- `didTapStartButton(cell:)` -/
def didTapStartButton (s : ChatPlayer) (loads : Bool) : Option ChatPlayer :=
  let s := { s with isPlaying := !s.isPlaying }
  if s.isPlaying then
    let s := { s with audio := s.audio.stop }
    let s := s.stopPulseAnimation
    some { s with startImage := .start, playNum := 0 }
  else do
    let (prepared, s) ← s.prepareAudio s.playNum loads
    if prepared then
      let s := s.startPulseAnimation
      return { s with audio := s.audio.play, startImage := .square }
    else return s

/-- `didTapCloseButton()` -/
def didTapCloseButton (s : ChatPlayer) : ChatPlayer :=
  { s with audio := s.audio.stop, closed := true }

/-! ## Events -/

/-- What happens on the screen; `loads` says how a load that is tried ends. -/
inductive Event
  | timer (loads : Bool)
  | didTapStartButton (loads : Bool)
  /-- The clip that plays has come to its end. -/
  | didFinishPlaying (loads : Bool)
  | didTapCloseButton
  deriving DecidableEq, Repr

/-- Whether an event can happen: the timer fires once, a closed screen gets no taps, and only a clip
that plays comes to its end. -/
def canHappen (s : ChatPlayer) : Event → Bool
  | .timer _ => s.timerPending
  | .didTapStartButton _ => !s.closed
  | .didFinishPlaying _ => s.audio.isPlaying
  | .didTapCloseButton => !s.closed

/-- What the controller does on an event; it may trap. -/
def handle (s : ChatPlayer) : Event → Option ChatPlayer
  | .timer loads => { s with timerPending := false }.timerFired loads
  | .didTapStartButton loads => s.didTapStartButton loads
  | .didFinishPlaying loads => { s with audio := s.audio.stop }.audioPlayerDidFinishPlaying loads
  | .didTapCloseButton => some s.didTapCloseButton

/-- One event, if it can happen. -/
def step (s : ChatPlayer) (e : Event) : Option ChatPlayer :=
  if s.canHappen e then s.handle e else none

end ChatPlayer

end DialogueApp
