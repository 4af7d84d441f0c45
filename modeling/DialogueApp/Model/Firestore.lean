import Mathlib.Data.List.Basic

/-!
# Firestore values

A document's data is a Swift dictionary `[String: Any]`.  Only the values the app stores or casts
are told apart; every other Firestore type is `other`.
-/

namespace DialogueApp

/-- `Timestamp`, as an exact number. -/
abbrev Timestamp := Int

/-- A field value. -/
inductive Value
  | string (s : String)
  | timestamp (t : Timestamp)
  | array (vs : List Value)
  | other

namespace Value

/-- `as? String` -/
def asString : Value → Option String
  | .string s => some s
  | _ => none

/-- `as? Timestamp` -/
def asTimestamp : Value → Option Timestamp
  | .timestamp t => some t
  | _ => none

/-- `as? [String]`: every element has to be a string. -/
def asStrings : Value → Option (List String)
  | .array vs => vs.mapM asString
  | _ => none

/-- A Swift `[String]` as a field value. -/
def strings (l : List String) : Value := .array (l.map .string)

@[simp] theorem asString_string (s : String) : (Value.string s).asString = some s := rfl

@[simp] theorem asTimestamp_timestamp (t : Timestamp) : (timestamp t).asTimestamp = some t := rfl

@[simp] theorem asStrings_strings (l : List String) : (strings l).asStrings = some l := by
  unfold strings asStrings
  induction l with
  | nil => rfl
  | cons s l ih => simp [List.mapM_cons, ih]

end Value

/-- `[String: Any]` -/
abbrev Dictionary := List (String × Value)

/-- A stored document. -/
structure Document where
  documentID : String
  data : Dictionary

/-- The top-level collections. -/
inductive Collection
  | characters | dialogues | conversations
  deriving DecidableEq, Repr

end DialogueApp
