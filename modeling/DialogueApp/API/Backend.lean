import DialogueApp.API.Services
import DialogueApp.Controllers.RecordingView
import DialogueApp.Lib.Keyed

/-!
# Firestore and Storage

The store all clients share, and what a request does to it.  The `Outcome` of a request is chosen
by the network and the servers: whether it succeeds, the download URL a new object gets, and which
documents a query finds.  A step that reports an error writes nothing, `downloadURL` gives a URL
only for an object that is there, and nothing is ever deleted.

A query may find any of the documents stored by the time it is answered, in any order, so that
answers from the local cache and answers that took long on their way are covered.
-/

namespace DialogueApp

/-- What a Storage object holds. -/
inductive Content
  | data (data : Data)
  | recording (recording : Recording)

/-- A stored object, under its path. -/
structure StorageObject where
  path : String
  /-- The download URL the server has given to the object. -/
  url : String
  content : Content

/-- The three collections of Firestore and the objects of Storage. -/
structure Backend where
  characters : List Document
  dialogues : List Document
  conversations : List Document
  objects : List StorageObject

/-- How one request ends. -/
structure Outcome where
  ok : Bool
  /-- The download URL of the object, where the request creates one. -/
  url : String
  /-- The positions of the documents a query finds. -/
  found : List ℕ
  /-- The clock of the client at the callback. -/
  now : Timestamp
  deriving Repr

namespace Backend

/-- The store before anything is written. -/
def empty : Backend := ⟨[], [], [], []⟩

/-- The documents of a collection. -/
def documents (b : Backend) : Collection → List Document
  | .characters => b.characters
  | .dialogues => b.dialogues
  | .conversations => b.conversations

/-- `setData`: the document with this id gets the data. -/
def setData (b : Backend) (collection : Collection) (document : Document) : Backend :=
  match collection with
  | .characters => { b with characters := b.characters.upsert Document.documentID document }
  | .dialogues => { b with dialogues := b.dialogues.upsert Document.documentID document }
  | .conversations =>
    { b with conversations := b.conversations.upsert Document.documentID document }

/-- A put: the object at this path gets the content. -/
def put (b : Backend) (object : StorageObject) : Backend :=
  { b with objects := b.objects.upsert StorageObject.path object }

/-- The documents at the given positions of a collection. -/
def find (b : Backend) (collection : Collection) (found : List ℕ) : List Document :=
  found.filterMap ((b.documents collection)[·]?)

/-- What a request with this outcome does to the store and gives to its callback; `none` where the
outcome is impossible.  The request comes from a client with this screen and this device. -/
def perform (b : Backend) (create : CreateChatController) (device : Device) (o : Outcome) :
    (r : Request) → Option (Backend × Reply r)
  | .animate => some (b, create)
  | .putData path data =>
    if o.ok then some (b.put ⟨path, o.url, .data data⟩, false) else some (b, true)
  | .putFile path file =>
    match device.read file with
    | some recording =>
      if o.ok then some (b.put ⟨path, o.url, .recording recording⟩, false) else some (b, true)
    | none => some (b, true)
  | .downloadURL path =>
    if o.ok then
      match b.objects.find? fun object => object.path = path with
      | some object => some (b, some object.url)
      | none => none
    else some (b, none)
  | .setData collection documentID data =>
    if o.ok then some (b.setData collection ⟨documentID, data⟩, false) else some (b, true)
  | .getDocuments collection =>
    if o.ok then some (b, some (b.find collection o.found)) else some (b, none)

end Backend

end DialogueApp
