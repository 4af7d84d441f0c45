import DialogueApp.Client
import DialogueApp.Lib.Shared

/-!
# All clients and the store

Any number of clients around one store.  An event of the world is a client's number with an event
of that client, so a run of the world is an interleaving of the clients' taps and callbacks.
-/

namespace DialogueApp

/-- The store with all clients around it. -/
abbrev World := Shared ℕ Backend Client

namespace World

/-- An empty store, and every client just launched, with what its device holds from earlier. -/
def init (disks : ℕ → Disk) : World :=
  ⟨Backend.empty, fun client => Client.launched (disks client)⟩

/-- One event of one client. -/
def step (names : Names) (url : URLParser) : World → ℕ × Client.Event → Option World :=
  Shared.advance (Client.step names url)

/-- The world after a list of events. -/
def run (names : Names) (url : URLParser) (w : World) (es : List (ℕ × Client.Event)) :
    Option World :=
  Runs.run (step names url) w es

/-- A successful answer. -/
def success (url : String) (found : List ℕ) : Outcome := ⟨true, url, found, 0⟩

/-- A client registers a character with a recorded line. -/
def registerCharacter : List (ℕ × Client.Event) :=
  [(0, .showRegisterViewController),
   (0, .onScreen 0 (.didFinishPicking ⟨some [1]⟩)),
   (0, .onScreen 0 (.didTapRecordButton 0 true)), (0, .onScreen 0 (.didTapRecordButton 0 true)),
   (0, .register 0 0),
   (0, .answer 0 (success "image url" [])), (0, .answer 0 (success "" [])),
   (0, .answer 0 (success "audio url" [])), (0, .answer 0 (success "" [])),
   (0, .answer 0 (success "" [])), (0, .answer 0 (success "" [])),
   (0, .answer 0 (success "" [0])), (0, .answer 0 (success "" [0]))]

end World

end DialogueApp
