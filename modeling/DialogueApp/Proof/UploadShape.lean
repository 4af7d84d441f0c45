import DialogueApp.Controllers.CreateChatUpload

/-!
# The requests of the uploads

Which requests an upload can issue, and in which order, whatever answers it gets.
-/

namespace DialogueApp

open Program CharacterService DialogueService

/-- A request to Storage. -/
def IsStorage : Request → Prop
  | .putData _ _ => True
  | .putFile _ _ => True
  | .downloadURL _ => True
  | _ => False

/-- A query. -/
def IsRead : Request → Prop
  | .getDocuments _ => True
  | _ => False

/-- The request writes a line. -/
def IsLineWrite : Request → Prop
  | .setData .dialogues _ _ => True
  | _ => False

theorem IsStorage.not_lineWrite {r : Request} (h : IsStorage r) : ¬ IsLineWrite r := by
  cases r <;> first | exact h.elim | exact id

theorem IsRead.not_lineWrite {r : Request} (h : IsRead r) : ¬ IsLineWrite r := by
  cases r <;> first | exact h.elim | exact id

theorem IsStorage.ne_animate {r : Request} (h : IsStorage r) : r ≠ .animate := by
  rintro rfl
  exact h

theorem IsStorage.ne_getDocuments {r : Request} (h : IsStorage r) (collection : Collection) :
    r ≠ .getDocuments collection := by
  rintro rfl
  exact h

theorem IsRead.ne_animate {r : Request} (h : IsRead r) : r ≠ .animate := by
  rintro rfl
  exact h

variable {m : Moment}

theorem fistUploadDialogue_only {item : CharacterItem} :
    ((DataUploader.fistUploadDialogue item).run m).Only IsStorage := by
  unfold DataUploader.fistUploadDialogue
  cases item.image.jpegData with
  | none => trivial
  | some image =>
    refine Chain.only_bind trivial fun filename _ => ?_
    refine Chain.only_bind (Chain.only_request trivial) fun _ _ => ?_
    refine Chain.only_bind (Chain.only_request trivial) fun imageUrl _ => ?_
    cases imageUrl with
    | none => trivial
    | some imageUrl =>
      refine Chain.only_bind (Chain.only_request trivial) fun _ _ => ?_
      refine Chain.only_bind (Chain.only_request trivial) fun audioUrl _ => ?_
      cases audioUrl <;> trivial

theorem uploadAudio_only {audio : URL} :
    ((DataUploader.uploadDialogue audio).run m).Only IsStorage := by
  unfold DataUploader.uploadDialogue
  refine Chain.only_bind trivial fun filename _ => ?_
  refine Chain.only_bind (Chain.only_request trivial) fun _ _ => ?_
  refine Chain.only_bind (Chain.only_request trivial) fun audioUrl _ => ?_
  cases audioUrl <;> trivial

theorem fetchDocuments_only {α : Type} {collection : Collection}
    {decode : Dictionary → Timestamp → α} :
    ((fetchDocuments collection decode).run m).Only IsRead := by
  unfold fetchDocuments
  refine Chain.only_bind (Chain.only_request trivial) fun documents _ => ?_
  cases documents <;> trivial

/-- Fetching the lines does not fetch the characters. -/
theorem fetchDialogue_ne_characters :
    (fetchDialogue.run m).Only (· ≠ .getDocuments .characters) := by
  unfold fetchDialogue fetchDocuments
  refine Chain.only_bind (Chain.only_request (by simp)) fun documents _ => ?_
  cases documents <;> trivial

theorem uploadCharacter_ne_animate {item : CharacterItem} :
    ((uploadCharacter item).run m).Only (· ≠ .animate) := by
  unfold uploadCharacter
  refine Chain.only_bind trivial fun _ _ => ?_
  refine Chain.only_bind (fistUploadDialogue_only.mono fun _ => IsStorage.ne_animate) fun _ _ => ?_
  refine Chain.only_bind trivial fun _ _ => ?_
  refine Chain.only_bind (Chain.only_request nofun) fun _ _ => ?_
  refine Chain.only_bind trivial fun _ _ => ?_
  refine Chain.only_bind trivial fun _ _ => ?_
  refine Chain.only_bind (Chain.only_request nofun) fun _ _ => ?_
  refine Chain.only_bind (fetchDocuments_only.mono fun _ => IsRead.ne_animate) fun _ _ => ?_
  refine Chain.only_bind (fetchDocuments_only.mono fun _ => IsRead.ne_animate) fun _ _ => ?_
  trivial

/-- Once the write of a new character's line has been answered, the upload only reads. -/
theorem uploadCharacter_after {item : CharacterItem} :
    ((uploadCharacter item).run m).After IsLineWrite IsRead := by
  unfold uploadCharacter
  refine Chain.after_bind trivial fun _ _ => ?_
  refine Chain.after_bind (fistUploadDialogue_only.mono fun _ => IsStorage.not_lineWrite)
    fun _ _ => ?_
  refine Chain.after_bind trivial fun _ _ => ?_
  refine Chain.after_bind (Chain.only_request id) fun _ _ => ?_
  refine Chain.after_bind trivial fun _ _ => ?_
  refine Chain.after_bind trivial fun _ m' => ?_
  have hreads : ∀ m₁, ((do
      let characters ← fetchCharacter
      let dialogues ← fetchDialogue
      return ({ characters, dialogues } : NewInfo) : Program NewInfo).run m₁).Only IsRead := by
    intro m₁
    refine Chain.only_bind fetchDocuments_only fun _ _ => ?_
    exact Chain.only_bind fetchDocuments_only fun _ _ => trivial
  refine ⟨fun _ a => hreads a.2, fun a => ?_⟩
  exact Async.After.of_not ((hreads a.2).mono fun _ => IsRead.not_lineWrite)

theorem uploadDialogue_ne_animate {item : DialogueItem} :
    ((uploadDialogue item).run m).Only (· ≠ .animate) := by
  unfold uploadDialogue
  refine Chain.only_bind trivial fun _ _ => ?_
  refine Chain.only_bind (uploadAudio_only.mono fun _ => IsStorage.ne_animate) fun _ _ => ?_
  refine Chain.only_bind trivial fun _ _ => ?_
  refine Chain.only_bind (Chain.only_request nofun) fun _ _ => ?_
  exact fetchDocuments_only.mono fun _ => IsRead.ne_animate

/-! ## Where an upload returns early -/

/-- The answer has no value: the `guard` of the callback returns. -/
def Unanswered : (r : Request) → Reply r × Moment → Prop
  | .downloadURL _, a => a.1 = none
  | .getDocuments _, a => a.1 = none
  | _, _ => False

/-- The callback of the request needs the value of its answer. -/
def NeedsValue : Request → Prop
  | .downloadURL _ => True
  | .getDocuments _ => True
  | _ => False

theorem fistUploadDialogue_stops {item : CharacterItem} (h : item.image.jpegData = none) :
    (DataUploader.fistUploadDialogue item).run m = .stop := by
  unfold DataUploader.fistUploadDialogue
  rw [h]
  rfl

theorem fistUploadDialogue_stopsOn {item : CharacterItem} {image : Data}
    (h : item.image.jpegData = some image) :
    ((DataUploader.fistUploadDialogue item).run m).StopsOn Unanswered := by
  unfold DataUploader.fistUploadDialogue
  rw [h]
  refine Chain.stopsOn_bind trivial fun filename _ => ?_
  refine Chain.stopsOn_request (fun _ _ hbad => hbad.elim) fun _ _ _ => ?_
  refine Chain.stopsOn_request (fun _ _ hbad => ?_) fun imageUrl _ hgood => ?_
  · obtain rfl := hbad
    rfl
  obtain ⟨imageUrl, rfl⟩ := Option.ne_none_iff_exists'.1 hgood
  refine Chain.stopsOn_request (fun _ _ hbad => hbad.elim) fun _ _ _ => ?_
  refine Chain.stopsOn_request (fun _ _ hbad => ?_) fun audioUrl _ hgood => ?_
  · obtain rfl := hbad
    rfl
  obtain ⟨audioUrl, rfl⟩ := Option.ne_none_iff_exists'.1 hgood
  trivial

theorem uploadAudio_stopsOn {audio : URL} :
    ((DataUploader.uploadDialogue audio).run m).StopsOn Unanswered := by
  unfold DataUploader.uploadDialogue
  refine Chain.stopsOn_bind trivial fun filename _ => ?_
  refine Chain.stopsOn_request (fun _ _ hbad => hbad.elim) fun _ _ _ => ?_
  refine Chain.stopsOn_request (fun _ _ hbad => ?_) fun audioUrl _ hgood => ?_
  · obtain rfl := hbad
    rfl
  obtain ⟨audioUrl, rfl⟩ := Option.ne_none_iff_exists'.1 hgood
  trivial

theorem fetchDocuments_stopsOn {α : Type} {collection : Collection}
    {decode : Dictionary → Timestamp → α} :
    ((fetchDocuments collection decode).run m).StopsOn Unanswered := by
  unfold fetchDocuments
  refine Chain.stopsOn_request (fun _ _ hbad => ?_) fun documents _ hgood => ?_
  · obtain rfl := hbad
    rfl
  obtain ⟨documents, rfl⟩ := Option.ne_none_iff_exists'.1 hgood
  trivial

/-- Without an image the upload of a character returns at once. -/
theorem uploadCharacter_stops {item : CharacterItem} (h : item.image.jpegData = none) :
    (uploadCharacter item).run m = .stop := by
  show Async.bind ((DataUploader.fistUploadDialogue item).run m) _ = _
  rw [fistUploadDialogue_stops h]
  rfl

theorem uploadCharacter_pending {item : CharacterItem} {image : Data}
    (h : item.image.jpegData = some image) :
    ((uploadCharacter item).run m).pending = true := by
  refine Async.pending_bind (x := (DataUploader.fistUploadDialogue item).run m) ?_ _
  unfold DataUploader.fistUploadDialogue
  rw [h]
  rfl

/-- With an image it returns early on an answer without a value only. -/
theorem uploadCharacter_stopsOn {item : CharacterItem} {image : Data}
    (h : item.image.jpegData = some image) :
    ((uploadCharacter item).run m).StopsOn Unanswered := by
  unfold uploadCharacter
  refine Chain.stopsOn_bind trivial fun _ _ => ?_
  refine Chain.stopsOn_bind (fistUploadDialogue_stopsOn h) fun _ _ => ?_
  refine Chain.stopsOn_bind trivial fun _ _ => ?_
  refine Chain.stopsOn_request (fun _ _ hbad => hbad.elim) fun _ _ _ => ?_
  refine Chain.stopsOn_bind trivial fun _ _ => ?_
  refine Chain.stopsOn_bind trivial fun _ _ => ?_
  refine Chain.stopsOn_request (fun _ _ hbad => hbad.elim) fun _ _ _ => ?_
  refine Chain.stopsOn_bind fetchDocuments_stopsOn fun _ _ => ?_
  refine Chain.stopsOn_bind fetchDocuments_stopsOn fun _ _ => ?_
  trivial

theorem uploadDialogue_stopsOn {item : DialogueItem} :
    ((uploadDialogue item).run m).StopsOn Unanswered := by
  unfold uploadDialogue
  refine Chain.stopsOn_bind trivial fun _ _ => ?_
  refine Chain.stopsOn_bind uploadAudio_stopsOn fun _ _ => ?_
  refine Chain.stopsOn_bind trivial fun _ _ => ?_
  refine Chain.stopsOn_request (fun _ _ hbad => hbad.elim) fun _ _ _ => ?_
  exact fetchDocuments_stopsOn

/-- A registered conversation waits for one animation, at its start. -/
theorem didTapRegisterButton_animate_first (c : CreateChatController) {α : Type} (a : α) :
    (((fun _ => a) <$> c.didTapRegisterButton.2).run m).OnlyFirst (· = .animate) := by
  show (Async.bind (c.didTapRegisterButton.2.run m) _).OnlyFirst _
  rw [CreateChatController.didTapRegisterButton_run]
  refine fun p => ⟨nofun, fun q => ?_⟩
  obtain ⟨_ | _, m'⟩ := q <;> trivial

end DialogueApp
