import DialogueApp.Proof.Ownership
import DialogueApp.Proof.UploadShape

/-!
# The store invariant

`Consistent` says how the three collections and Storage hang together: a dialogue document copies the
name and the picture of its character document, a conversation copies its lines from dialogue
documents, and every copied URL is that of an object in Storage.  `Demands` says when an upload may
issue a request, and `perform_consistent` that a request which meets its demands keeps the invariant.

Two assumptions on the runs are propositions that the development carries along.  `frozen`: the picked
lines do not change between a register tap and the end of its animation.  `paired`: the answer to the
write of a new character's line agrees with the answer to the write of the character.
-/

namespace DialogueApp

open CharacterService DialogueService ChatService

namespace Backend

/-- The dialogue has been decoded from a stored document. -/
def KnownDialogue (b : Backend) (d : Dialogue) : Prop :=
  ∃ document ∈ b.dialogues, ∃ now, d = Dialogue.init document.data now

/-- The character has been decoded from a stored document. -/
def KnownCharacter (b : Backend) (c : Character) : Prop :=
  ∃ document ∈ b.characters, ∃ now, c = Character.init document.data now

/-- A stored character has this id, name and picture. -/
def HasCharacter (b : Backend) (characterID name imageUrl : String) : Prop :=
  ∃ timeStamp, ⟨characterID, characterData characterID name imageUrl timeStamp⟩ ∈ b.characters

variable {b b' : Backend}

theorem Grows.knownDialogue (h : Grows b b') {d : Dialogue} (hd : b.KnownDialogue d) :
    b'.KnownDialogue d := by
  obtain ⟨document, hmem, now, rfl⟩ := hd
  exact ⟨document, h.documents .dialogues document hmem, now, rfl⟩

theorem Grows.knownCharacter (h : Grows b b') {c : Character} (hc : b.KnownCharacter c) :
    b'.KnownCharacter c := by
  obtain ⟨document, hmem, now, rfl⟩ := hc
  exact ⟨document, h.documents .characters document hmem, now, rfl⟩

theorem Grows.hasCharacter (h : Grows b b') {id name image : String}
    (hc : b.HasCharacter id name image) : b'.HasCharacter id name image := by
  obtain ⟨timeStamp, hmem⟩ := hc
  exact ⟨timeStamp, h.documents .characters _ hmem⟩

/-- The data of a conversation copies known lines; the sound files are read later than the rest. -/
def CopiesLines (frozen : Prop) (b : Backend) (data : Dictionary) : Prop :=
  ∃ (picks picks' : List Dialogue) (title color : String) (timeStamp : Timestamp),
    (frozen → picks' = picks) ∧ (∀ d ∈ picks ++ picks', b.KnownDialogue d) ∧
    data = conversationData
      { conversations := picks'.map (·.audioUrl)
        members := picks.map (·.imageUrl)
        dialogues := picks.map (·.dialogue)
        title } timeStamp color

theorem Grows.copiesLines {frozen : Prop} (h : Grows b b') {data : Dictionary}
    (hdata : CopiesLines frozen b data) : CopiesLines frozen b' data := by
  obtain ⟨picks, picks', title, color, timeStamp, hfrozen, hknown, rfl⟩ := hdata
  exact ⟨picks, picks', title, color, timeStamp, hfrozen,
    fun d hd => h.knownDialogue (hknown d hd), rfl⟩

/-- The data of a line with this id, with a picture and a sound file in Storage; its name and picture
are those of the character with this id, or no character has it. -/
def CopiesCharacter (b : Backend) (orphan : String → Prop) (id : String) (data : Dictionary) :
    Prop :=
  ∃ (characterID text audioUrl name imageUrl : String) (timeStamp : Timestamp),
    data = dialogueData characterID id text audioUrl name imageUrl timeStamp ∧
    b.Present imageUrl ∧ b.Present audioUrl ∧
    (b.HasCharacter characterID name imageUrl ∨ orphan characterID)

theorem Grows.copiesCharacter (h : Grows b b') {orphan orphan' : String → Prop} {id : String}
    {data : Dictionary} (horphan : ∀ characterID, orphan characterID → orphan' characterID)
    (hdata : b.CopiesCharacter orphan id data) : b'.CopiesCharacter orphan' id data := by
  obtain ⟨characterID, text, audioUrl, name, imageUrl, timeStamp, hdata, himage, haudio, hlink⟩ :=
    hdata
  exact ⟨characterID, text, audioUrl, name, imageUrl, timeStamp, hdata, h.present himage,
    h.present haudio, hlink.imp h.hasCharacter (horphan characterID)⟩

/-- How the store hangs together. -/
structure Consistent (names : Names) (frozen paired : Prop) (b : Backend) : Prop where
  character_data : ∀ d ∈ b.characters, ∃ name imageUrl timeStamp,
    d.data = characterData d.documentID name imageUrl timeStamp ∧ b.Present imageUrl
  character_owner : ∀ d ∈ b.characters, ∃ i, names.Owns i d.documentID
  /-- An upload stores one character at most. -/
  character_unique : ∀ i, ∀ d ∈ b.characters, ∀ d' ∈ b.characters,
    names.Owns i d.documentID → names.Owns i d'.documentID → d = d'
  /-- A line without its character comes from an upload that has failed to store it. -/
  dialogue_data : ∀ d ∈ b.dialogues, b.CopiesCharacter
    (fun characterID => ¬ paired ∧ ∃ i, names.Owns i d.documentID ∧ names.Owns i characterID ∧
      ¬ StoredBy names b .characters i) d.documentID d.data
  /-- A character and a line of one upload belong together. -/
  dialogue_character : ∀ i, ∀ c ∈ b.characters, ∀ d ∈ b.dialogues, names.Owns i c.documentID →
    names.Owns i d.documentID → d.data.string "characterID" = c.documentID
  conversation_data : ∀ d ∈ b.conversations, b.CopiesLines frozen d.data

/-- When upload `i` may have a request answered. -/
def Demands (names : Names) (frozen isCharacter : Prop) (i : Owner) (b : Backend) :
    Request → Prop
  | .putData path _ => names.OwnsPath i path ∧ b.Free path
  | .putFile path _ => names.OwnsPath i path ∧ b.Free path
  | .setData .characters id data =>
    names.Owns i id ∧ ¬ StoredBy names b .characters i ∧ ¬ StoredBy names b .dialogues i ∧
    isCharacter ∧ ∃ name imageUrl timeStamp,
      data = characterData id name imageUrl timeStamp ∧ b.Present imageUrl
  | .setData .dialogues id data =>
    names.Owns i id ∧ ¬ StoredBy names b .dialogues i ∧
    b.CopiesCharacter (fun characterID =>
      names.Owns i characterID ∧ isCharacter ∧ ¬ StoredBy names b .characters i) id data ∧
    ∀ c ∈ b.characters, names.Owns i c.documentID → data.string "characterID" = c.documentID
  | .setData .conversations id data =>
    names.Owns i id ∧ ¬ StoredBy names b .conversations i ∧ b.CopiesLines frozen data
  | _ => True

variable {names : Names} {frozen paired isCharacter : Prop} {i j : Owner}
  {create : CreateChatController} {device : Device} {o : Outcome}

/-! ## The effect of a request that meets its demands -/

/-- A request writes one document of its upload, or one object, or nothing. -/
inductive Effect (names : Names) (i : Owner) (b b' : Backend) : Prop
  | none (h : b' = b)
  | document (collection : Collection) (d : Document) (hown : names.Owns i d.documentID)
      (hfresh : ¬ StoredBy names b collection i) (h : b' = b.setData collection d)
  | object (object : StorageObject) (hown : names.OwnsPath i object.path)
      (hfree : b.Free object.path) (h : b' = b.put object)

theorem demands_setData {collection : Collection} {id : String} {data : Dictionary}
    (h : Demands names frozen isCharacter i b (.setData collection id data)) :
    names.Owns i id ∧ ¬ StoredBy names b collection i := by
  cases collection
  · exact ⟨h.1, h.2.1⟩
  · exact ⟨h.1, h.2.1⟩
  · exact ⟨h.1, h.2.1⟩

theorem perform_effect {r : Request} {reply : Reply r}
    (hd : Demands names frozen isCharacter i b r)
    (h : b.perform create device o r = some (b', reply)) : Effect names i b b' := by
  cases r with
  | animate => exact .none (perform_animate h).1
  | putData path data =>
    rcases perform_putData h with h' | h'
    · exact .none h'
    · exact .object _ hd.1 hd.2 h'
  | putFile path file =>
    rcases perform_putFile h with ⟨h', -⟩ | ⟨recording, -, -, h'⟩
    · exact .none h'
    · exact .object _ hd.1 hd.2 h'
  | downloadURL path => exact .none (perform_downloadURL h).1
  | setData collection id data =>
    rcases perform_setData h with ⟨-, h⟩ | ⟨-, h⟩
    · exact .document collection ⟨id, data⟩ (demands_setData hd).1 (demands_setData hd).2 h
    · exact .none h
  | getDocuments collection => exact .none (perform_getDocuments h).1

/-- A document of an upload that has stored none in the collection is only added. -/
theorem mem_setData_iff {collection collection' : Collection} {d e : Document}
    (hown : names.Owns i d.documentID) (hfresh : ¬ StoredBy names b collection i) :
    e ∈ (b.setData collection d).documents collection' ↔
      e ∈ b.documents collection' ∨ (collection' = collection ∧ e = d) := by
  by_cases hc : collection' = collection
  · subst hc
    rw [documents_setData_self, List.mem_upsert]
    constructor
    · rintro (⟨he, -⟩ | rfl)
      · exact Or.inl he
      · exact Or.inr ⟨rfl, rfl⟩
    · rintro (he | ⟨-, rfl⟩)
      · refine Or.inl ⟨he, fun heq => hfresh ⟨e, he, ?_⟩⟩
        rw [heq]
        exact hown
      · exact Or.inr rfl
  · rw [documents_setData_ne d hc]
    simp [hc]

theorem mem_setData_self_iff {collection : Collection} {d e : Document}
    (hown : names.Owns i d.documentID) (hfresh : ¬ StoredBy names b collection i) :
    e ∈ (b.setData collection d).documents collection ↔
      e ∈ b.documents collection ∨ e = d := by
  rw [mem_setData_iff hown hfresh]
  simp

theorem mem_put_iff {object o : StorageObject} (hfree : b.Free object.path) :
    o ∈ (b.put object).objects ↔ o ∈ b.objects ∨ o = object := by
  show o ∈ b.objects.upsert StorageObject.path object ↔ _
  rw [List.mem_upsert]
  exact or_congr_left (and_iff_left_of_imp fun ho => hfree o ho)

theorem later_put {object : StorageObject} (hfree : b.Free object.path) :
    Later names i b (b.put object) := by
  refine ⟨⟨fun c d hd => ?_, fun o ho => (mem_put_iff hfree).2 (Or.inl ho)⟩, fun c d hd _ => ?_⟩
  · rwa [documents_put]
  · rwa [documents_put] at hd

theorem free_put {object : StorageObject} {path : String} (hfree : b.Free object.path)
    (hne : path ≠ object.path) (h : b.Free path) : (b.put object).Free path := by
  rintro o ho rfl
  rcases (mem_put_iff hfree).1 ho with ho | rfl
  · exact h o ho rfl
  · exact hne rfl

theorem Effect.grows (h : Effect names i b b') : Grows b b' := by
  cases h with
  | none h =>
    subst h
    exact Grows.refl b'
  | document collection d hown hfresh h =>
    subst h
    refine ⟨fun c e he => (mem_setData_iff hown hfresh).2 (Or.inl he), fun o ho => ?_⟩
    rwa [objects_setData]
  | object object hown hfree h =>
    subst h
    refine ⟨fun c e he => ?_, fun o ho => (mem_put_iff hfree).2 (Or.inl ho)⟩
    rwa [documents_put]

/-- The other uploads can rely on it. -/
theorem Effect.rely (h : Effect names i b b') (hji : j ≠ i) : Rely names j b b' := by
  refine ⟨⟨h.grows, fun c e he hown' => ?_⟩, fun o ho hown' => ?_⟩
  · cases h with
    | none h => exact h ▸ he
    | document collection d hown hfresh h =>
      subst h
      rcases (mem_setData_iff hown hfresh).1 he with he | ⟨-, rfl⟩
      · exact he
      · exact absurd (hown'.unique hown) hji
    | object object hown hfree h =>
      subst h
      rwa [documents_put] at he
  · cases h with
    | none h => exact h ▸ ho
    | document collection d hown hfresh h =>
      subst h
      rwa [objects_setData] at ho
    | object object hown hfree h =>
      subst h
      rcases (mem_put_iff hfree).1 ho with ho | rfl
      · exact ho
      · exact absurd (hown'.unique hown) hji

/-- Only the upload of a new character writes a character. -/
theorem perform_no_character {r : Request} {reply : Reply r}
    (hd : Demands names frozen isCharacter i b r) (hnot : ¬ isCharacter)
    (h : b.perform create device o r = some (b', reply))
    (hnone : ¬ StoredBy names b .characters i) : ¬ StoredBy names b' .characters i := by
  have hsame : b'.documents .characters = b.documents .characters := by
    cases r with
    | animate => rw [(perform_animate h).1]
    | putData path data =>
      rcases perform_putData h with h' | h'
      · rw [h']
      · rw [h', documents_put]
    | putFile path file =>
      rcases perform_putFile h with ⟨h', -⟩ | ⟨recording, -, -, h'⟩
      · rw [h']
      · rw [h', documents_put]
    | downloadURL path => rw [(perform_downloadURL h).1]
    | setData collection id data =>
      rcases perform_setData h with ⟨-, h'⟩ | ⟨-, h'⟩
      · cases collection with
        | characters => exact absurd hd.2.2.2.1 hnot
        | dialogues =>
          rw [h']
          rfl
        | conversations =>
          rw [h']
          rfl
      · rw [h']
    | getDocuments collection => rw [(perform_getDocuments h).1]
  rintro ⟨d, hd', hown⟩
  rw [hsame] at hd'
  exact hnone ⟨d, hd', hown⟩

/-! ## The invariant is kept -/

theorem consistent_put (hb : b.Consistent names frozen paired) {object : StorageObject}
    (hfree : b.Free object.path) : (b.put object).Consistent names frozen paired := by
  have hgrows : Grows b (b.put object) :=
    ⟨fun c d hd => by rwa [documents_put], fun o ho => (mem_put_iff hfree).2 (Or.inl ho)⟩
  constructor
  · intro d hd
    obtain ⟨name, imageUrl, timeStamp, hdata, himage⟩ := hb.character_data d hd
    exact ⟨name, imageUrl, timeStamp, hdata, hgrows.present himage⟩
  · exact hb.character_owner
  · exact hb.character_unique
  · exact fun d hd => hgrows.copiesCharacter (fun _ h => h) (hb.dialogue_data d hd)
  · exact hb.dialogue_character
  · exact fun d hd => hgrows.copiesLines (hb.conversation_data d hd)

theorem consistent_setData_characters (hb : b.Consistent names frozen paired) {id : String}
    {data : Dictionary} (hd : Demands names frozen isCharacter i b (.setData .characters id data)) :
    (b.setData .characters ⟨id, data⟩).Consistent names frozen paired := by
  obtain ⟨hown, hfresh, hnoline, -, name, imageUrl, timeStamp, hdata, himage⟩ := hd
  have heffect : Effect names i b (b.setData .characters ⟨id, data⟩) :=
    .document .characters ⟨id, data⟩ hown hfresh rfl
  have hmem : ∀ d, d ∈ (b.setData .characters ⟨id, data⟩).characters ↔
      d ∈ b.characters ∨ d = ⟨id, data⟩ := fun d => mem_setData_self_iff hown hfresh
  have hgrows := heffect.grows
  constructor
  · intro d hd
    rcases (hmem d).1 hd with hd | rfl
    · obtain ⟨name, imageUrl, timeStamp, hdata, himage⟩ := hb.character_data d hd
      exact ⟨name, imageUrl, timeStamp, hdata, hgrows.present himage⟩
    · exact ⟨name, imageUrl, timeStamp, hdata, hgrows.present himage⟩
  · intro d hd
    rcases (hmem d).1 hd with hd | rfl
    · exact hb.character_owner d hd
    · exact ⟨i, hown⟩
  · intro j d hd d' hd' hj hj'
    rcases (hmem d).1 hd with hd | rfl <;> rcases (hmem d').1 hd' with hd' | rfl
    · exact hb.character_unique j d hd d' hd' hj hj'
    · obtain rfl := hj'.unique hown
      exact absurd ⟨d, hd, hj⟩ hfresh
    · obtain rfl := hj.unique hown
      exact absurd ⟨d', hd', hj'⟩ hfresh
    · rfl
  · intro d hd
    refine hgrows.copiesCharacter ?_ (hb.dialogue_data d hd)
    -- the upload of a line without character is another one
    rintro characterID ⟨hpaired, j, hj, hcharacter, hnone⟩
    have hji : j ≠ i := by
      rintro rfl
      exact hnoline ⟨d, hd, hj⟩
    exact ⟨hpaired, j, hj, hcharacter, fun h => hnone (((heffect.rely hji).storedBy_iff _).1 h)⟩
  · intro j c hc d hd hj hj'
    rcases (hmem c).1 hc with hc | rfl
    · exact hb.dialogue_character j c hc d hd hj hj'
    · obtain rfl := hj.unique hown
      exact absurd ⟨d, hd, hj'⟩ hnoline
  · exact fun d hd => hgrows.copiesLines (hb.conversation_data d hd)

theorem consistent_setData_dialogues (hb : b.Consistent names frozen paired) {id : String}
    {data : Dictionary} (hd : Demands names frozen isCharacter i b (.setData .dialogues id data))
    (hpaired : paired → isCharacter → StoredBy names b .characters i) :
    (b.setData .dialogues ⟨id, data⟩).Consistent names frozen paired := by
  obtain ⟨hown, hfresh, hdata, hcharacter⟩ := hd
  have heffect : Effect names i b (b.setData .dialogues ⟨id, data⟩) :=
    .document .dialogues ⟨id, data⟩ hown hfresh rfl
  have hmem : ∀ d, d ∈ (b.setData .dialogues ⟨id, data⟩).dialogues ↔
      d ∈ b.dialogues ∨ d = ⟨id, data⟩ := fun d => mem_setData_self_iff hown hfresh
  have hgrows := heffect.grows
  constructor
  · intro d hd
    obtain ⟨name, imageUrl, timeStamp, hdata, himage⟩ := hb.character_data d hd
    exact ⟨name, imageUrl, timeStamp, hdata, hgrows.present himage⟩
  · exact hb.character_owner
  · exact hb.character_unique
  · intro d hd
    rcases (hmem d).1 hd with hd | rfl
    · exact hgrows.copiesCharacter (fun _ h => h) (hb.dialogue_data d hd)
    · refine hgrows.copiesCharacter ?_ hdata
      rintro characterID ⟨hid, hischar, hnone⟩
      exact ⟨fun hp => hnone (hpaired hp hischar), i, hown, hid, hnone⟩
  · intro j c hc d hd hj hj'
    rcases (hmem d).1 hd with hd | rfl
    · exact hb.dialogue_character j c hc d hd hj hj'
    · obtain rfl := hj'.unique hown
      exact hcharacter c hc hj
  · exact fun d hd => hgrows.copiesLines (hb.conversation_data d hd)

theorem consistent_setData_conversations (hb : b.Consistent names frozen paired) {id : String}
    {data : Dictionary}
    (hd : Demands names frozen isCharacter i b (.setData .conversations id data)) :
    (b.setData .conversations ⟨id, data⟩).Consistent names frozen paired := by
  obtain ⟨hown, hfresh, hdata⟩ := hd
  have hgrows : Grows b (b.setData .conversations ⟨id, data⟩) :=
    (Effect.document .conversations ⟨id, data⟩ hown hfresh rfl).grows
  have hmem : ∀ d, d ∈ (b.setData .conversations ⟨id, data⟩).conversations ↔
      d ∈ b.conversations ∨ d = ⟨id, data⟩ := fun d => mem_setData_self_iff hown hfresh
  constructor
  · exact hb.character_data
  · exact hb.character_owner
  · exact hb.character_unique
  · exact hb.dialogue_data
  · exact hb.dialogue_character
  · intro d hd
    rcases (hmem d).1 hd with hd | rfl
    · exact hgrows.copiesLines (hb.conversation_data d hd)
    · exact hgrows.copiesLines hdata

/-- A request that meets its demands keeps the invariant. -/
theorem perform_consistent {r : Request} {reply : Reply r} (hb : b.Consistent names frozen paired)
    (hd : Demands names frozen isCharacter i b r)
    (hpaired : paired → isCharacter → IsLineWrite r →
      (o.ok = true ↔ StoredBy names b .characters i))
    (h : b.perform create device o r = some (b', reply)) : b'.Consistent names frozen paired := by
  cases r with
  | animate => exact (perform_animate h).1 ▸ hb
  | putData path data =>
    rcases perform_putData h with h' | h'
    · exact h' ▸ hb
    · exact h' ▸ consistent_put hb hd.2
  | putFile path file =>
    rcases perform_putFile h with ⟨h', -⟩ | ⟨recording, -, -, h'⟩
    · exact h' ▸ hb
    · exact h' ▸ consistent_put hb hd.2
  | downloadURL path => exact (perform_downloadURL h).1 ▸ hb
  | setData collection id data =>
    rcases perform_setData h with ⟨hok, h'⟩ | ⟨-, h'⟩
    · subst h'
      cases collection with
      | characters => exact consistent_setData_characters hb hd
      | dialogues =>
        exact consistent_setData_dialogues hb hd fun hp hc => (hpaired hp hc trivial).1 hok
      | conversations => exact consistent_setData_conversations hb hd
    · exact h' ▸ hb
  | getDocuments collection => exact (perform_getDocuments h).1 ▸ hb

end Backend

end DialogueApp
