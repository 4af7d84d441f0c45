import DialogueApp.Proof.Copies

/-!
# The uploads under the contract

`contract i` is the contract of upload `i`: beside uploads that keep `Rely i`, with answers that the
store gives.  Each upload is walked through once: every request it issues meets its demands, and what
it hands to its completion has been decoded from stored documents.
-/

namespace DialogueApp

open Backend Program CharacterService DialogueService ChatService

/-- What the callback reads was drawn by the upload. -/
def Names.OwnsMoment (names : Names) (i : Owner) (m : Moment) : Prop :=
  names.Owns i m.documentID ∧ names.OwnsFile i m.uuid

/-- The answers of the store to a request of upload `i`; `picks` are the lines its register tap has
read, where a register tap has started it. -/
structure Answer (names : Names) (frozen paired isCharacter : Prop) (i : Owner)
    (picks : List Dialogue) (b : Backend) (r : Request) (a : Reply r × Moment) (b' : Backend) :
    Prop where
  performed : ∃ create device o, b.perform create device o r = some (b', a.1) ∧
    (∀ d ∈ create.bottomDialogues, b.KnownDialogue d) ∧
    (frozen → r = .animate → create.bottomDialogues = picks) ∧
    (paired → isCharacter → IsLineWrite r → (o.ok = true ↔ StoredBy names b .characters i))
  moment : names.OwnsMoment i a.2

/-- The contract of upload `i`. -/
def contract (names : Names) (frozen paired isCharacter : Prop) (i : Owner)
    (picks : List Dialogue) : Contract Backend Request fun r => Reply r × Moment where
  inv := Consistent names frozen paired
  rely := Rely names i
  demands := Demands names frozen isCharacter i
  answers := Answer names frozen paired isCharacter i picks
  rely_refl := Rely.refl
  rely_trans _ _ _ := Rely.trans

/-- A finished upload of a new character has stored both documents or none. -/
def Final (names : Names) (paired isCharacter : Prop) (i : Owner) (b : Backend) : Prop :=
  paired → isCharacter →
    (StoredBy names b .characters i ↔ StoredBy names b .dialogues i)

/-- What a completion is handed has been decoded from stored documents. -/
def Backend.Known (b : Backend) : Completion → Prop
  | .newInfo newInfo =>
    (∀ c ∈ newInfo.characters, b.KnownCharacter c) ∧ ∀ d ∈ newInfo.dialogues, b.KnownDialogue d
  | .dialogues dialogues => ∀ d ∈ dialogues, b.KnownDialogue d
  | .conversation => True

section

variable {names : Names} {frozen paired isCharacter : Prop} {i : Owner} {picks : List Dialogue}
  {s : Backend} {S : Backend → Prop} {m : Moment}

/-! ## The requests -/

theorem holds_put {path : String} {r : Request}
    (hr : (∃ data, r = .putData path data) ∨ ∃ file, r = .putFile path file)
    {Q : Backend → Reply r × Moment → Prop} (hown : names.OwnsPath i path) (hfree : s.Free path)
    (h : ∀ t reply m', Later names i s t → names.OwnsMoment i m' →
      (∀ path', names.OwnsPath i path' → path' ≠ path → s.Free path' → t.Free path') →
      Q t (reply, m')) :
    ((request r).run m).Holds (contract names frozen paired isCharacter i picks) Q S s := by
  refine Chain.holds_request fun t hst _ => ⟨?_, fun a t' ha => ?_⟩
  · rcases hr with ⟨data, rfl⟩ | ⟨file, rfl⟩
    · exact ⟨hown, hst.free hown hfree⟩
    · exact ⟨hown, hst.free hown hfree⟩
  · obtain ⟨create, device, o, hperform, -⟩ := ha.performed
    have hput : t' = t ∨ ∃ object, object.path = path ∧ t' = t.put object := by
      rcases hr with ⟨data, rfl⟩ | ⟨file, rfl⟩
      · exact (perform_putData hperform).imp_right fun hput => ⟨_, rfl, hput⟩
      · rcases perform_putFile hperform with ⟨hsame, -⟩ | ⟨recording, -, -, hput⟩
        · exact Or.inl hsame
        · exact Or.inr ⟨_, rfl, hput⟩
    rcases hput with rfl | ⟨object, rfl, rfl⟩
    · exact h t' a.1 a.2 hst.toLater ha.moment fun path' hpath' _ => hst.free hpath'
    · have hfree' := hst.free hown hfree
      refine h _ a.1 a.2 (hst.toLater.trans (later_put hfree')) ha.moment ?_
      intro path' hpath' hne hfree''
      exact free_put hfree' hne (hst.free hpath' hfree'')

theorem holds_downloadURL {path : String} {Q : Backend → Option String × Moment → Prop}
    (h : ∀ t reply m', Rely names i s t → names.OwnsMoment i m' →
      (∀ url, reply = some url → t.Present url) → Q t (reply, m')) :
    ((downloadURL path).run m).Holds (contract names frozen paired isCharacter i picks) Q S s := by
  refine Chain.holds_request fun t hst _ => ⟨trivial, fun a t' ha => ?_⟩
  obtain ⟨create, device, o, hperform, -⟩ := ha.performed
  obtain ⟨rfl, hurl⟩ := perform_downloadURL hperform
  exact h t' a.1 a.2 hst ha.moment hurl

theorem holds_getDocuments {collection : Collection}
    {Q : Backend → Option (List Document) × Moment → Prop}
    (h : ∀ t reply m', Rely names i s t → names.OwnsMoment i m' →
      (∀ documents, reply = some documents → ∀ d ∈ documents, d ∈ t.documents collection) →
      Q t (reply, m')) :
    ((getDocuments collection).run m).Holds
      (contract names frozen paired isCharacter i picks) Q S s := by
  refine Chain.holds_request fun t hst _ => ⟨trivial, fun a t' ha => ?_⟩
  obtain ⟨create, device, o, hperform, -⟩ := ha.performed
  obtain ⟨rfl, hdocuments⟩ := perform_getDocuments hperform
  exact h t' a.1 a.2 hst ha.moment hdocuments

theorem holds_animate {Q : Backend → CreateChatController × Moment → Prop}
    (h : ∀ t self m', Rely names i s t → names.OwnsMoment i m' →
      (∀ d ∈ self.bottomDialogues, t.KnownDialogue d) →
      (frozen → self.bottomDialogues = picks) → Q t (self, m')) :
    (animate.run m).Holds (contract names frozen paired isCharacter i picks) Q S s := by
  refine Chain.holds_request fun t hst _ => ⟨trivial, fun a t' ha => ?_⟩
  obtain ⟨create, device, o, hperform, hknown, hpicks, -⟩ := ha.performed
  obtain ⟨rfl, hself⟩ := perform_animate hperform
  refine h t' a.1 a.2 hst ha.moment ?_ fun hf => ?_
  · rwa [hself]
  · rw [hself]
    exact hpicks hf rfl

theorem holds_setData {collection : Collection} {id : String} {data : Dictionary}
    {Q : Backend → Bool × Moment → Prop}
    (h : ∀ t, Rely names i s t → t.Consistent names frozen paired →
      Demands names frozen isCharacter i t (.setData collection id data) ∧
      ∀ t' ok reply m', names.OwnsMoment i m' →
        (paired → isCharacter → IsLineWrite (.setData collection id data) →
          (ok = true ↔ StoredBy names t .characters i)) →
        (ok = true ∧ t' = t.setData collection ⟨id, data⟩) ∨ (ok = false ∧ t' = t) →
        Q t' (reply, m')) :
    ((setData collection id data).run m).Holds
      (contract names frozen paired isCharacter i picks) Q S s := by
  refine Chain.holds_request fun t hst hinv => ⟨(h t hst hinv).1, fun a t' ha => ?_⟩
  obtain ⟨create, device, o, hperform, -, -, hpaired⟩ := ha.performed
  exact (h t hst hinv).2 t' o.ok a.1 a.2 ha.moment hpaired (perform_setData hperform)

/-! ## The uploader and the fetches -/

/-- The upload has put no object so far. -/
def NoObject (names : Names) (i : Owner) (b : Backend) : Prop :=
  ∀ path, names.OwnsPath i path → b.Free path

theorem ownsPath_image {names : Names} {i : Owner} {filename : String}
    (h : names.OwnsFile i filename) : names.OwnsPath i (DataUploader.imagePath filename) :=
  ⟨filename, h, Or.inl rfl⟩

theorem ownsPath_audio {names : Names} {i : Owner} {filename : String}
    (h : names.OwnsFile i filename) : names.OwnsPath i (DataUploader.audioPath filename) :=
  ⟨filename, h, Or.inr rfl⟩

theorem holds_uploadAudio {audio : URL} {Q : Backend → String × Moment → Prop}
    (hm : names.OwnsMoment i m) (hnone : NoObject names i s)
    (hS : ∀ t, Later names i s t → S t)
    (hQ : ∀ t url m', Later names i s t → names.OwnsMoment i m' → t.Present url → Q t (url, m')) :
    ((DataUploader.uploadDialogue audio).run m).Holds
      (contract names frozen paired isCharacter i picks) Q S s := by
  unfold DataUploader.uploadDialogue
  have hown := ownsPath_audio hm.2
  refine Chain.holds_bind (Chain.holds_read ?_)
  refine Chain.holds_bind (holds_put (Or.inr ⟨audio, rfl⟩) hown (hnone _ hown) ?_)
  intro t _ m₁ hst _ _
  refine Chain.holds_bind (holds_downloadURL fun t' reply m₂ htt' hm₂ hurl => ?_)
  have hlater := hst.trans htt'.toLater
  cases reply with
  | none => exact Chain.holds_stop (hS t' hlater)
  | some url => exact Chain.holds_pure (hQ t' url m₂ hlater hm₂ (hurl url rfl))

theorem holds_fistUploadDialogue {item : CharacterItem}
    {Q : Backend → DownloadURL × Moment → Prop} (hm : names.OwnsMoment i m)
    (hnone : NoObject names i s) (hS : ∀ t, Later names i s t → S t)
    (hQ : ∀ t urls m', Later names i s t → names.OwnsMoment i m' → t.Present urls.image →
      t.Present urls.audio → Q t (urls, m')) :
    ((DataUploader.fistUploadDialogue item).run m).Holds
      (contract names frozen paired isCharacter i picks) Q S s := by
  unfold DataUploader.fistUploadDialogue
  have himage := ownsPath_image hm.2
  have haudio := ownsPath_audio hm.2
  cases item.image.jpegData with
  | none => exact Chain.holds_stop (hS s (Later.refl s))
  | some image =>
    refine Chain.holds_bind (Chain.holds_read ?_)
    refine Chain.holds_bind (holds_put (Or.inl ⟨image, rfl⟩) himage (hnone _ himage) ?_)
    intro t₁ _ m₁ h₁ _ hfree
    have hfree := hfree _ haudio (Names.imagePath_ne_audioPath _ _).symm (hnone _ haudio)
    refine Chain.holds_bind (holds_downloadURL fun t₂ reply m₂ h₂ _ hurl => ?_)
    have hlater₂ := h₁.trans h₂.toLater
    cases reply with
    | none => exact Chain.holds_stop (hS t₂ hlater₂)
    | some imageUrl =>
      refine Chain.holds_bind
        (holds_put (Or.inr ⟨item.audio, rfl⟩) haudio (h₂.free haudio hfree) ?_)
      intro t₃ _ m₃ h₃ _ _
      refine Chain.holds_bind (holds_downloadURL fun t₄ reply m₄ h₄ hm₄ hurl' => ?_)
      have hlater₄ := (hlater₂.trans h₃).trans h₄.toLater
      cases reply with
      | none => exact Chain.holds_stop (hS t₄ hlater₄)
      | some audioUrl =>
        have hpresent := h₄.present (h₃.present (hurl imageUrl rfl))
        exact hQ t₄ ⟨imageUrl, audioUrl⟩ m₄ hlater₄ hm₄ hpresent (hurl' audioUrl rfl)

theorem holds_fetchDocuments {α : Type} {collection : Collection}
    {decode : Dictionary → Timestamp → α} {Q : Backend → List α × Moment → Prop}
    (hS : ∀ t, Rely names i s t → S t)
    (hQ : ∀ t found m', Rely names i s t →
      (∀ x ∈ found, ∃ document ∈ t.documents collection, ∃ now, x = decode document.data now) →
      Q t (found, m')) :
    ((fetchDocuments collection decode).run m).Holds
      (contract names frozen paired isCharacter i picks) Q S s := by
  unfold fetchDocuments
  refine Chain.holds_bind (holds_getDocuments fun t reply m' hst _ hdocuments => ?_)
  cases reply with
  | none => exact Chain.holds_stop (hS t hst)
  | some documents =>
    refine Chain.holds_bind (Chain.holds_read ?_)
    refine Chain.holds_pure (hQ t _ m' hst fun x hx => ?_)
    obtain ⟨d, hd, rfl⟩ := List.mem_map.1 hx
    exact ⟨d, hdocuments documents rfl d hd, _, rfl⟩

/-! ## The three uploads -/

theorem Backend.Later.final {t : Backend} (h : Later names i s t)
    (hs : Final names paired isCharacter i s) : Final names paired isCharacter i t := by
  intro hp hc
  rw [h.storedBy_iff, h.storedBy_iff]
  exact hs hp hc

/-- What is known when a new character's write has been answered. -/
theorem after_character_write {t t' : Backend} {characterID name imageUrl : String}
    {timeStamp : Timestamp} {ok : Bool} (hown : names.Owns i characterID)
    (hfresh : ¬ StoredBy names t .characters i)
    (h : (ok = true ∧
      t' = t.setData .characters ⟨characterID, characterData characterID name imageUrl timeStamp⟩) ∨
      (ok = false ∧ t' = t)) :
    Grows t t' ∧ (StoredBy names t' .dialogues i → StoredBy names t .dialogues i) ∧
    (t'.HasCharacter characterID name imageUrl ∨ ¬ StoredBy names t' .characters i) ∧
    ∀ c ∈ t'.characters, names.Owns i c.documentID → c.documentID = characterID := by
  rcases h with ⟨-, rfl⟩ | ⟨-, rfl⟩
  · refine ⟨(Effect.document .characters _ hown hfresh rfl).grows, fun h => h,
      Or.inl ⟨timeStamp, ?_⟩, ?_⟩
    · exact (mem_setData_self_iff hown hfresh).2 (Or.inr rfl)
    · intro c hc hci
      rcases (mem_setData_self_iff hown hfresh).1 hc with hc | rfl
      · exact absurd ⟨c, hc, hci⟩ hfresh
      · rfl
  · exact ⟨Grows.refl t', fun h => h, Or.inr hfresh, fun c hc hci => absurd ⟨c, hc, hci⟩ hfresh⟩

/-- Under `paired`, the answer to the line's write settles both documents. -/
theorem after_line_write {t t' : Backend} {d : Document} {ok : Bool}
    (hown : names.Owns i d.documentID) (hfresh : ¬ StoredBy names t .dialogues i)
    (hpaired : paired → isCharacter → (ok = true ↔ StoredBy names t .characters i))
    (h : (ok = true ∧ t' = t.setData .dialogues d) ∨ (ok = false ∧ t' = t)) :
    Final names paired isCharacter i t' := by
  intro hp hc
  rcases h with ⟨hok, rfl⟩ | ⟨hok, rfl⟩
  · refine iff_of_true ((hpaired hp hc).1 hok) ⟨d, ?_, hown⟩
    exact (mem_setData_self_iff hown hfresh).2 (Or.inr rfl)
  · refine iff_of_false (fun hstored => ?_) hfresh
    rw [(hpaired hp hc).2 hstored] at hok
    cases hok

theorem holds_uploadCharacter {item : CharacterItem} (hm : names.OwnsMoment i m)
    (hnone : NoObject names i s) (hfresh : ∀ collection, ¬ StoredBy names s collection i)
    (hischar : isCharacter) :
    ((uploadCharacter item).run m).Holds (contract names frozen paired isCharacter i picks)
      (fun t p => t.Known (.newInfo p.1) ∧ Final names paired isCharacter i t)
      (Final names paired isCharacter i) s := by
  have hnothing : ∀ t, Later names i s t → Final names paired isCharacter i t := by
    intro t hst
    refine hst.final fun _ _ => iff_of_false (hfresh _) (hfresh _)
  unfold uploadCharacter
  refine Chain.holds_bind (Chain.holds_read ?_)
  refine Chain.holds_bind (holds_fistUploadDialogue hm hnone hnothing ?_)
  intro t₁ urls m₁ h₁ hm₁ himage haudio
  refine Chain.holds_bind (Chain.holds_read ?_)
  refine Chain.holds_bind (holds_setData fun t₂ h₂ hinv₂ => ?_)
  have hlater₂ := h₁.trans h₂.toLater
  have hnochar : ¬ StoredBy names t₂ .characters i := by
    rw [hlater₂.storedBy_iff]
    exact hfresh _
  have hnoline : ¬ StoredBy names t₂ .dialogues i := by
    rw [hlater₂.storedBy_iff]
    exact hfresh _
  refine ⟨⟨hm.1, hnochar, hnoline, hischar, _, _, _, rfl, h₂.present himage⟩, ?_⟩
  intro t₃ ok _ m₃ hm₃ _ hwrite
  obtain ⟨hgrows₃, hline₃, hchar₃, hown₃⟩ := after_character_write hm.1 hnochar hwrite
  refine Chain.holds_bind (Chain.holds_read ?_)
  refine Chain.holds_bind (Chain.holds_read ?_)
  refine Chain.holds_bind (holds_setData fun t₄ h₄ hinv₄ => ?_)
  have hnoline₄ : ¬ StoredBy names t₄ .dialogues i := by
    rw [h₄.storedBy_iff]
    exact fun h => hnoline (hline₃ h)
  have hgrows₄ : Grows t₁ t₄ := (h₂.toGrows.trans hgrows₃).trans h₄.toGrows
  refine ⟨⟨hm₃.1, hnoline₄, ⟨_, _, _, _, _, _, rfl, hgrows₄.present himage, hgrows₄.present haudio,
    ?_⟩, ?_⟩, ?_⟩
  · refine hchar₃.imp h₄.hasCharacter fun hno => ⟨hm.1, hischar, ?_⟩
    rwa [h₄.storedBy_iff]
  · intro c hc hci
    exact (hown₃ c (h₄.own_documents .characters c hc hci) hci).symm
  intro t₅ ok' _ m₅ _ hpaired hwrite'
  have hfinal₅ : Final names paired isCharacter i t₅ :=
    after_line_write hm₃.1 hnoline₄ (fun hp hc => hpaired hp hc trivial) hwrite'
  refine Chain.holds_bind (holds_fetchDocuments (fun t h => h.final hfinal₅) ?_)
  intro t₆ characters m₆ h₆ hcharacters
  have hfinal₆ := h₆.final hfinal₅
  refine Chain.holds_bind (holds_fetchDocuments (fun t h => h.final hfinal₆) ?_)
  intro t₇ dialogues m₇ h₇ hdialogues
  refine Chain.holds_pure ⟨⟨fun c hc => ?_, hdialogues⟩, h₇.final hfinal₆⟩
  exact h₇.knownCharacter (hcharacters c hc)

theorem characterData_injective {id name name' imageUrl imageUrl' : String}
    {timeStamp timeStamp' : Timestamp}
    (h : characterData id name imageUrl timeStamp = characterData id name' imageUrl' timeStamp') :
    name = name' ∧ imageUrl = imageUrl' := by
  simp only [characterData, List.cons.injEq, Prod.mk.injEq, Value.string.injEq] at h
  exact ⟨h.2.1.2, h.2.2.1.2⟩

/-- The picture of a stored character is in Storage. -/
theorem Backend.HasCharacter.present {id name imageUrl : String}
    (h : s.HasCharacter id name imageUrl) (hs : s.Consistent names frozen paired) :
    s.Present imageUrl := by
  obtain ⟨timeStamp, hmem⟩ := h
  obtain ⟨name', imageUrl', timeStamp', hdata, hpresent⟩ := hs.character_data _ hmem
  rwa [(characterData_injective hdata).2]

theorem holds_uploadDialogue {item : DialogueItem} (hm : names.OwnsMoment i m)
    (hnone : NoObject names i s) (hfresh : ∀ collection, ¬ StoredBy names s collection i)
    (hnotchar : ¬ isCharacter) (hitem : s.HasCharacter item.id item.character item.imageUrl) :
    ((uploadDialogue item).run m).Holds (contract names frozen paired isCharacter i picks)
      (fun t p => t.Known (.dialogues p.1) ∧ Final names paired isCharacter i t)
      (Final names paired isCharacter i) s := by
  have hfinal : ∀ t, Final names paired isCharacter i t := fun _ _ hc => absurd hc hnotchar
  unfold uploadDialogue
  refine Chain.holds_bind (Chain.holds_read ?_)
  refine Chain.holds_bind (holds_uploadAudio hm hnone (fun t _ => hfinal t) ?_)
  intro t₁ audioUrl m₁ h₁ hm₁ haudio
  refine Chain.holds_bind (Chain.holds_read ?_)
  refine Chain.holds_bind (holds_setData fun t₂ h₂ hinv₂ => ?_)
  have hlater := h₁.trans h₂.toLater
  have hcharacter := hlater.hasCharacter hitem
  refine ⟨⟨hm.1, ?_, ⟨_, _, _, _, _, _, rfl, hcharacter.present hinv₂, h₂.present haudio,
    Or.inl hcharacter⟩, ?_⟩, ?_⟩
  · rw [hlater.storedBy_iff]
    exact hfresh _
  · intro c hc hci
    exact absurd ⟨c, hc, hci⟩ fun h => hfresh .characters ((hlater.storedBy_iff _).1 h)
  intro t₃ _ _ m₃ _ _ _
  refine holds_fetchDocuments (fun t _ => hfinal t) ?_
  exact fun t₄ dialogues m₄ _ hdialogues => ⟨hdialogues, hfinal t₄⟩

theorem holds_didTapRegisterButton {c : CreateChatController}
    {Q : Backend → Unit × Moment → Prop} (hfresh : ¬ StoredBy names s .conversations i)
    (hknown : ∀ d ∈ picks, s.KnownDialogue d) (hpicks : c.bottomDialogues = picks)
    (hQ : ∀ t p, Q t p) (hS : ∀ t, S t) :
    (c.didTapRegisterButton.2.run m).Holds
      (contract names frozen paired isCharacter i picks) Q S s := by
  show ((CreateChatController.uploadConversation _ _ _).run m).Holds _ _ _ s
  unfold CreateChatController.uploadConversation
  refine Chain.holds_bind (holds_animate fun t self m₁ hst hm₁ hself hfrozen => ?_)
  refine Chain.holds_bind ?_
  unfold ChatService.uploadConversation
  refine Chain.holds_bind (Chain.holds_read ?_)
  refine Chain.holds_bind (Chain.holds_read ?_)
  unfold addDocument
  refine Chain.holds_bind (Chain.holds_read ?_)
  refine holds_setData fun t₂ h₂ _ => ⟨⟨hm₁.1, ?_, picks, self.bottomDialogues, c.titleText,
    (returnCellColor m₁.colorNumber).1, m₁.now, hfrozen, ?_, ?_⟩, ?_⟩
  · rw [(hst.toLater.trans h₂.toLater).storedBy_iff]
    exact hfresh
  · intro d hd
    rcases List.mem_append.1 hd with hd | hd
    · exact h₂.knownDialogue (hst.knownDialogue (hknown d hd))
    · exact h₂.knownDialogue (hself d hd)
  · rw [← hpicks]
    rfl
  intro t₃ _ error m₃ _ _ _
  cases error
  · exact hQ _ _
  · exact hS _

end

end DialogueApp
