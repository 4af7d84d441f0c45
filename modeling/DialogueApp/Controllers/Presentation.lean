import DialogueApp.Controllers.CreateChatUpload

/-!
# One presentation of the create screen

From `didTapCreateButton` to the dismissal: the screen, the uploads its register button has started,
and the `fetchConversations()` that a finished upload starts and whose completion dismisses the
screen.  `didTapCloseButton` dismisses it at once.
-/

namespace DialogueApp

/-- The screen with the uploads of one presentation. -/
structure Presentation where
  create : CreateChatController
  /-- The uploads of the register taps, in tap order. -/
  registrations : List (Running Unit)
  /-- What they have written to the conversations collection. -/
  written : List Document
  /-- The `fetchConversations()` on their way. -/
  fetches : ℕ
  dismissed : Bool

namespace Presentation

/-- The screen when it is presented. -/
def new (create : CreateChatController) : Presentation where
  create := create
  registrations := []
  written := []
  fetches := 0
  dismissed := false

/-- What happens from the presentation on. -/
inductive Event
  /-- An event of the screen, a register tap or a reset apart. -/
  | screen (e : CreateChatController.Event)
  | didTapRegisterButton (m : Moment)
  /-- The end of the animation of a registration, or the answer to its `addDocument`. -/
  | answer (registration : ℕ) (ok : Bool) (m : Moment)
  /-- The answer to a `fetchConversations()`. -/
  | fetched (ok : Bool)
  | didTapCloseButton

/-- Whether an event of the screen is a register tap, or the reset that opens the next
presentation. -/
def isTapOrReset : CreateChatController.Event → Bool
  | .didTapRegisterButton => true
  | .defaultUI _ => true
  | _ => false

/-- What the request of a registration writes and gives to its callback. -/
def perform (s : Presentation) (ok : Bool) : (r : Request) → Option (List Document × Reply r)
  | .animate => some (s.written, s.create)
  | .setData .conversations documentID data =>
    if ok then some (s.written ++ [⟨documentID, data⟩], false) else some (s.written, true)
  | _ => none

/-- The answer to the request that a registration waits for.  A registration that is done calls
`completion?(true)`, which fetches the conversations. -/
def answer (s : Presentation) (k : ℕ) (ok : Bool) (m : Moment) : Option Presentation :=
  match s.registrations[k]? with
  | some (.call r next) =>
    (s.perform ok r).map fun (written, reply) =>
      let registration := next (reply, m)
      let fetches := if registration matches .done _ then s.fetches + 1 else s.fetches
      { s with registrations := s.registrations.set k registration, written, fetches }
  | _ => none

/-- One event; nothing happens after the dismissal. -/
def step (sameName : String → String → Bool) (s : Presentation) (e : Event) :
    Option Presentation :=
  if s.dismissed then none
  else
    match e with
    | .screen e =>
      if isTapOrReset e then none
      else (s.create.step sameName e).map fun create => { s with create }
    | .didTapRegisterButton m =>
      if s.create.registerButtonHidden then none
      else
        let (create, program) := s.create.didTapRegisterButton
        some { s with create, registrations := s.registrations ++ [program.run m] }
    | .answer k ok m => s.answer k ok m
    | .fetched ok =>
      if s.fetches = 0 then none else some { s with fetches := s.fetches - 1, dismissed := ok }
    | .didTapCloseButton => some { s with dismissed := true }

end Presentation

end DialogueApp
