import DialogueApp.Lib.Async
import DialogueApp.Controllers.CreateChatController

/-!
# Asynchronous requests

The third-party calls whose callbacks the app nests: UIKit's animation, Firebase Storage and
Firestore.  A `Program` is an upload function of the app as a chain of these callbacks.

What a callback reads besides its arguments is offered by the `Moment` it runs at: the clock, the id
of a `document()` and a `UUID()` drawn there, and the colour number in `UserDefaults`.
-/

namespace DialogueApp

/-- The bytes of a file. -/
abbrev Data := List UInt8

/-- A call that answers in a callback. -/
inductive Request
  /-- `UIView.animate(withDuration: 0.25)` -/
  | animate
  /-- `reference(withPath:).putData` -/
  | putData (path : String) (data : Data)
  /-- `reference(withPath:).putFile(from:)` -/
  | putFile (path : String) (file : URL)
  /-- `reference(withPath:).downloadURL` -/
  | downloadURL (path : String)
  /-- `document(documentID).setData` -/
  | setData (collection : Collection) (documentID : String) (data : Dictionary)
  /-- `order(by: "timeStamp", descending: true).getDocuments` -/
  | getDocuments (collection : Collection)

/-- What the callback is given: for a write whether it reports an error, for a read its result or
`nil`, and for the animation `self` as it is when the animation has ended. -/
@[reducible] def Reply : Request → Type
  | .animate => CreateChatController
  | .putData _ _ => Bool
  | .putFile _ _ => Bool
  | .downloadURL _ => Option String
  | .setData _ _ _ => Bool
  | .getDocuments _ => Option (List Document)

/-- What code running in a callback can read. -/
structure Moment where
  now : Timestamp
  documentID : String
  uuid : String
  /-- `UserDefaults.standard.integer(forKey: "color")` -/
  colorNumber : Int
  deriving Repr

/-- Code whose calls answer in callbacks. -/
abbrev Program := Chain Moment Request Reply

/-- A program that has started. -/
abbrev Running (α : Type) := Async Request (fun r => Reply r × Moment) (α × Moment)

namespace Program

/-- `Timestamp()` -/
def timestamp : Program Timestamp := do return (← get).now

/-- `document().documentID` -/
def documentID : Program String := do return (← get).documentID

/-- `UUID().uuidString` -/
def uuidString : Program String := do return (← get).uuid

/-- `UserDefaults.standard.integer(forKey: "color")` -/
def colorNumber : Program Int := do return (← get).colorNumber

/-- Make a call and go on in its callback. -/
def request (r : Request) : Program (Reply r) := Chain.request r

/-- `UIView.animate(withDuration: 0.25)`, which gives `self` as it is at the end. -/
def animate : Program CreateChatController := request .animate

/-- `putData`, which says whether it reports an error. -/
def putData (path : String) (data : Data) : Program Bool := request (.putData path data)

/-- `putFile(from:)`, which says whether it reports an error. -/
def putFile (path : String) (file : URL) : Program Bool := request (.putFile path file)

/-- `downloadURL`, by its `absoluteString`. -/
def downloadURL (path : String) : Program (Option String) := request (.downloadURL path)

/-- `document(documentID).setData`, which says whether it reports an error. -/
def setData (collection : Collection) (documentID : String) (data : Dictionary) : Program Bool :=
  request (.setData collection documentID data)

/-- `addDocument(data:)` sets the data of a document with an automatic id. -/
def addDocument (collection : Collection) (data : Dictionary) : Program Bool := do
  setData collection (← documentID) data

/-- `getDocuments`, by the documents of its snapshot. -/
def getDocuments (collection : Collection) : Program (Option (List Document)) :=
  request (.getDocuments collection)

end Program

end DialogueApp
