import DialogueApp.API.Request
import DialogueApp.Lib.FirstOccurrences

/-!
# The services

`DataUploader`, `CharacterService`, `DialogueService` and `ChatService`, callback by callback.  A
`guard … else { return }` in a callback is `Chain.stop`; a callback that ignores its error argument
goes on whatever the answer is.
-/

namespace DialogueApp

open Program

/-- A `UIImage`, by what `jpegData(compressionQuality: 0.75)` gives for it. -/
structure UIImage where
  jpegData : Option Data

/-- `UIImage()`, which has no data. -/
def UIImage.empty : UIImage := ⟨none⟩

/-- What a register tap uploads for a character with its first line. -/
structure CharacterItem where
  image : UIImage
  audio : URL
  text : String
  name : String

/-- What a register tap uploads for a further line. -/
structure DialogueItem where
  id : String
  imageUrl : String
  audio : URL
  text : String
  character : String

/-- The URLs of the two objects that `FistUploadDialogue` puts. -/
structure DownloadURL where
  image : String
  audio : String

/-- What a register tap uploads for a conversation. -/
structure ConversationInfo where
  conversations : List String
  members : List String
  dialogues : List String
  title : String

namespace DataUploader

/-- The Storage path of a picture. -/
def imagePath (filename : String) : String := "image/" ++ filename

/-- The Storage path of a sound file. -/
def audioPath (filename : String) : String := "audio/" ++ filename

/-- `FistUploadDialogue(dialogueItem:completion:)` -/
def fistUploadDialogue (dialogueItem : CharacterItem) : Program DownloadURL := do
  let some image := dialogueItem.image.jpegData | Chain.stop
  let audio := dialogueItem.audio
  let filename ← uuidString
  let imageRef := imagePath filename
  let audioRef := audioPath filename
  let _ ← putData imageRef image
  let some imageUrl ← downloadURL imageRef | Chain.stop
  let _ ← putFile audioRef audio
  let some audioUrl ← downloadURL audioRef | Chain.stop
  return { image := imageUrl, audio := audioUrl }

/-- `uploadDialogue(audio:completion:)` -/
def uploadDialogue (audio : URL) : Program String := do
  let filename ← uuidString
  let audioRef := audioPath filename
  let _ ← putFile audioRef audio
  let some audioUrl ← downloadURL audioRef | Chain.stop
  return audioUrl

end DataUploader

/-- A `getDocuments` whose callback decodes the documents of its snapshot, or returns without one. -/
def fetchDocuments {α : Type} (collection : Collection) (decode : Dictionary → Timestamp → α) :
    Program (List α) := do
  let some documents ← getDocuments collection | Chain.stop
  let now ← timestamp
  return documents.map fun document => decode document.data now

namespace DialogueService

/-- `fetchDialogue(completion:)` -/
def fetchDialogue : Program (List Dialogue) := fetchDocuments .dialogues Dialogue.init

/-- The fields of a dialogue document. -/
def dialogueData (characterID dialogueID dialogue audioUrl character imageUrl : String)
    (timeStamp : Timestamp) : Dictionary :=
  [("characterID", .string characterID),
   ("dialogueID", .string dialogueID),
   ("dialogue", .string dialogue),
   ("audioUrl", .string audioUrl),
   ("character", .string character),
   ("imageUrl", .string imageUrl),
   ("timeStamp", .timestamp timeStamp)]

/-- `uploadDialogue(dialogue:completion:)`, which fetches the lines when it has written. -/
def uploadDialogue (dialogue : DialogueItem) : Program (List Dialogue) := do
  let dialogueID ← documentID
  let audioURL ← DataUploader.uploadDialogue dialogue.audio
  let data := dialogueData dialogue.id dialogueID dialogue.text audioURL dialogue.character
    dialogue.imageUrl (← timestamp)
  let _ ← setData .dialogues dialogueID data
  fetchDialogue

end DialogueService

namespace CharacterService

/-- `fetchCharacter(completion:)` -/
def fetchCharacter : Program (List Character) := fetchDocuments .characters Character.init

/-- The fields of a character document. -/
def characterData (characterID character imageUrl : String) (timeStamp : Timestamp) : Dictionary :=
  [("characterID", .string characterID),
   ("character", .string character),
   ("imageUrl", .string imageUrl),
   ("timeStamp", .timestamp timeStamp)]

/-- `uploadCharacter(character:completion:)`: the character, its first line, then both fetches. -/
def uploadCharacter (character : CharacterItem) : Program NewInfo := do
  let characterID ← documentID
  let downloadURLs ← DataUploader.fistUploadDialogue character
  let characterName := character.name
  let imageUrl := downloadURLs.image
  let audioUrl := downloadURLs.audio
  let characterData := characterData characterID characterName imageUrl (← timestamp)
  let _ ← setData .characters characterID characterData
  let dialogueID ← documentID
  let dialogueData := DialogueService.dialogueData characterID dialogueID character.text audioUrl
    character.name imageUrl (← timestamp)
  let _ ← setData .dialogues dialogueID dialogueData
  let characters ← fetchCharacter
  let dialogues ← DialogueService.fetchDialogue
  return { characters, dialogues }

end CharacterService

/-- `CellColorType` -/
inductive CellColorType
  | pink | yellow | green | blue | orange | purple
  deriving DecidableEq, Repr

/-- `rawValue` -/
def CellColorType.rawValue : CellColorType → String
  | .pink => "pink"
  | .yellow => "yellow"
  | .green => "green"
  | .blue => "blue"
  | .orange => "orange"
  | .purple => "purple"

namespace ChatService

/-- `returnCellColor()`: the colour for the stored number, with the number stored next. -/
def returnCellColor (colorNumber : Int) : String × Int :=
  match colorNumber with
  | 0 => (CellColorType.purple.rawValue, 1)
  | 1 => (CellColorType.blue.rawValue, 2)
  | 2 => (CellColorType.green.rawValue, 3)
  | 3 => (CellColorType.yellow.rawValue, 4)
  | 4 => (CellColorType.orange.rawValue, 5)
  | 5 => (CellColorType.pink.rawValue, 0)
  | n => (CellColorType.pink.rawValue, n)

/-- The fields of a conversation document. -/
def conversationData (info : ConversationInfo) (timeStamp : Timestamp) (color : String) :
    Dictionary :=
  let topMembers := info.members.foldl List.appendNew []
  [("audioUrls", .strings info.conversations),
   ("caracterImageUrls", .strings info.members),
   ("topCaracterImageUrls", .strings topMembers),
   ("dialogs", .strings info.dialogues),
   ("title", .string info.title),
   ("timeStamp", .timestamp timeStamp),
   ("color", .string color)]

/-- `uploadConversation(info:completion:)`; its result says whether the write reports an error. -/
def uploadConversation (info : ConversationInfo) : Program Bool := do
  let data := conversationData info (← timestamp) (returnCellColor (← colorNumber)).1
  addDocument .conversations data

end ChatService

end DialogueApp
