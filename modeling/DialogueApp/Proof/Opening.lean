import DialogueApp.Controllers.ChatPlayer

/-!
# Opening a stored conversation

The decoder fills missing lists with `[""]`, whose one string is no URL.  The controller unwraps the
URL of every clip, and the chat view asks for a picture for every line.
-/

namespace DialogueApp

/-- A map with failures succeeds when it succeeds on each element. -/
theorem mapM_isSome_iff {α β : Type*} {f : α → Option β} {l : List α} :
    (l.mapM f).isSome = true ↔ ∀ a ∈ l, (f a).isSome = true := by
  induction l with
  | nil => simp
  | cons a l ih =>
    rw [List.mapM_cons, List.forall_mem_cons, ← ih]
    cases f a with
    | none => simp
    | some b => cases l.mapM f <;> simp

/-- Each clip of the conversation has a URL. -/
def Conversation.Opens (url : URLParser) (conversation : Conversation) : Prop :=
  ∀ s ∈ conversation.audioUrls, (url.parse s).isSome = true

theorem init_isSome_iff {url : URLParser} {conversation : Conversation} {colors : ChatViewColors} :
    (ChatPlayer.init url conversation colors).isSome = true ↔ conversation.Opens url := by
  rw [Conversation.Opens, ← mapM_isSome_iff, ChatPlayer.init]
  cases conversation.audioUrls.mapM url.parse <;> rfl

/-- The controller shows the conversation it was made for. -/
theorem init_chat {url : URLParser} {conversation : Conversation} {colors : ChatViewColors}
    {vc : ChatPlayer} (h : ChatPlayer.init url conversation colors = some vc) :
    vc.chatView.chat = some ⟨conversation, colors⟩ := by
  obtain ⟨audioUrls, -, hopened⟩ := Option.bind_eq_some_iff.1 h
  obtain rfl := Option.some.inj hopened
  rfl

namespace ChatView

/-- An item is made and measured when there is a picture for its line. -/
theorem render_isSome_iff {url : URLParser} {chat : Chat} :
    (render url ⟨some chat⟩).isSome = true ↔
      chat.conversation.dialogs.length ≤ chat.conversation.caracterImageUrls.length := by
  have hitem : ∀ row < chat.conversation.dialogs.length,
      ((do
        let size ← sizeForItemAt ⟨some chat⟩ row
        let cell ← cellForItemAt url ⟨some chat⟩ row
        return (size, cell) : Option (Option String × Option ChatViewCell)).isSome = true ↔
        row < chat.conversation.caracterImageUrls.length) := by
    intro row hrow
    simp only [sizeForItemAt, cellForItemAt, ChatViewCell.configureViewModel,
      ChatViewModel.dialogue, ChatViewModel.imageUrl, List.getElem?_eq_getElem hrow]
    by_cases himage : row < chat.conversation.caracterImageUrls.length
    · simp [himage]
    · simp [himage]
  rw [render, mapM_isSome_iff]
  constructor
  · intro h
    by_contra hlt
    have hrow : chat.conversation.caracterImageUrls.length < chat.conversation.dialogs.length := by
      omega
    have := (hitem _ hrow).1 (h _ (List.mem_range.2 hrow))
    omega
  · intro hle row hmem
    have hrow : row < chat.conversation.dialogs.length := List.mem_range.1 hmem
    exact (hitem row hrow).2 (by omega)

end ChatView

/-- Decode a document, open it, and render every item its chat view announces. -/
def openDocument (url : URLParser) (dictionary : Dictionary) (now : Timestamp)
    (colors : ChatViewColors) : Option (List (Option String × Option ChatViewCell)) := do
  let controller ← ChatPlayer.init url (Conversation.init dictionary now) colors
  controller.chatView.render url

/-- A document can be opened exactly when its `audioUrls` are a list of strings that all parse and
the decoded `dialogs` are no longer than the decoded `caracterImageUrls`. -/
theorem openDocument_isSome_iff (url : URLParser) (dictionary : Dictionary) (now : Timestamp)
    (colors : ChatViewColors) :
    (openDocument url dictionary now colors).isSome = true ↔
      (∃ audioUrls, (dictionary.lookup "audioUrls").bind Value.asStrings = some audioUrls ∧
        ∀ s ∈ audioUrls, (url.parse s).isSome = true) ∧
      (dictionary.strings "dialogs").length ≤ (dictionary.strings "caracterImageUrls").length := by
  have hopen : (openDocument url dictionary now colors).isSome = true ↔
      (ChatPlayer.init url (Conversation.init dictionary now) colors).isSome = true ∧
        (ChatView.render url ⟨some ⟨Conversation.init dictionary now, colors⟩⟩).isSome = true := by
    unfold openDocument ChatPlayer.init
    cases (Conversation.init dictionary now).audioUrls.mapM url.parse with
    | none => simp
    | some audioUrls => simp [ChatPlayer.opened]
  rw [hopen, init_isSome_iff, ChatView.render_isSome_iff]
  refine and_congr_left fun _ => ?_
  rw [Conversation.Opens, Conversation.init, Dictionary.strings]
  cases (dictionary.lookup "audioUrls").bind Value.asStrings with
  | none => simp [url.parse_empty]
  | some audioUrls => simp

/-- A document with a time only, which a query ordered by the time brings. -/
theorem openDocument_timeOnly :
    openDocument .nonempty [("timeStamp", .timestamp 0)] 0 ⟨.pink, .pink⟩ = none := rfl

end DialogueApp
