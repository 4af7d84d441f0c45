import DialogueApp.Model.Firestore

/-!
# The documents the app decodes

`Character`, `Dialogue` and `Conversation` with their initialisers `init(dictionary:)`.  A missing
or mistyped field gets a default; a missing time stamp gets the current time.
-/

namespace DialogueApp

/-- `dictionary[key] as? String ?? ""` -/
def Dictionary.string (dictionary : Dictionary) (key : String) : String :=
  ((dictionary.lookup key).bind Value.asString).getD ""

/-- `dictionary[key] as? [String] ?? [""]` -/
def Dictionary.strings (dictionary : Dictionary) (key : String) : List String :=
  ((dictionary.lookup key).bind Value.asStrings).getD [""]

/-- `dictionary[key] as? Timestamp ?? Timestamp()` -/
def Dictionary.timestamp (dictionary : Dictionary) (key : String) (now : Timestamp) : Timestamp :=
  ((dictionary.lookup key).bind Value.asTimestamp).getD now

/-- `Character` -/
structure Character where
  character : String
  imageUrl : String
  timeStamp : Timestamp
  characterID : String
  deriving DecidableEq, Repr

/-- `Dialogue`, a line of a character. -/
structure Dialogue where
  dialogue : String
  audioUrl : String
  timeStamp : Timestamp
  dialogueID : String
  character : String
  imageUrl : String
  characterID : String
  deriving DecidableEq, Repr

/-- `Conversation` -/
structure Conversation where
  audioUrls : List String
  caracterImageUrls : List String
  topCaracterImageUrls : List String
  dialogs : List String
  title : String
  timeStamp : Timestamp
  color : String
  deriving DecidableEq, Repr

/-- `Character.init(dictionary:)` -/
def Character.init (dictionary : Dictionary) (now : Timestamp) : Character where
  character := dictionary.string "character"
  imageUrl := dictionary.string "imageUrl"
  timeStamp := dictionary.timestamp "timeStamp" now
  characterID := dictionary.string "characterID"

/-- `Dialogue.init(dictionary:)` -/
def Dialogue.init (dictionary : Dictionary) (now : Timestamp) : Dialogue where
  dialogue := dictionary.string "dialogue"
  audioUrl := dictionary.string "audioUrl"
  timeStamp := dictionary.timestamp "timeStamp" now
  dialogueID := dictionary.string "dialogueID"
  character := dictionary.string "character"
  imageUrl := dictionary.string "imageUrl"
  characterID := dictionary.string "characterID"

/-- `Conversation.init(dictionary:)` -/
def Conversation.init (dictionary : Dictionary) (now : Timestamp) : Conversation where
  audioUrls := dictionary.strings "audioUrls"
  caracterImageUrls := dictionary.strings "caracterImageUrls"
  topCaracterImageUrls := dictionary.strings "topCaracterImageUrls"
  dialogs := dictionary.strings "dialogs"
  title := dictionary.string "title"
  timeStamp := dictionary.timestamp "timeStamp" now
  color := dictionary.string "color"

/-- What `CharacterService.uploadCharacter` hands to its completion. -/
structure NewInfo where
  characters : List Character
  dialogues : List Dialogue
  deriving DecidableEq, Repr

/-- A URL, by its text. -/
structure URL where
  absoluteString : String
  deriving DecidableEq, Repr

/-- `URL(string:)`, which refuses some strings and keeps the text of the others. -/
structure URLParser where
  parse : String → Option URL
  absoluteString_parse : ∀ s u, parse s = some u → u.absoluteString = s
  parse_empty : parse "" = none

/-- The parser that refuses the empty string only. -/
def URLParser.nonempty : URLParser where
  parse s := if s = "" then none else some ⟨s⟩
  absoluteString_parse s u h := by
    by_cases hs : s = ""
    · rw [if_pos hs] at h
      cases h
    · rw [if_neg hs] at h
      obtain rfl := Option.some.inj h
      rfl
  parse_empty := rfl

end DialogueApp
