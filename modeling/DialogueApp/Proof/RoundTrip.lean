import DialogueApp.Controllers.CreateChatUpload

/-!
# A registered conversation reads back as it was picked

The picked lines since the last reset are a function of the events (`picksSinceReset`), and the
register button is visible only with two of them or more.  The three lists that a register tap
stores are read off the picks at two moments, the tap and the end of its animation.
-/

namespace DialogueApp

open Runs

variable {sameName : String → String → Bool}

namespace CreateChatController

/-- How an event changes the lines picked since the last reset. -/
def see (c : CreateChatController) (e : Event) (picks : List Dialogue) : List Dialogue :=
  match e with
  | .didSelectRow row =>
    match c.selectedDialogues[row]? with
    | some dialogue => picks ++ [dialogue]
    | none => picks
  | .defaultUI _ => []
  | _ => picks

/-- The lines picked since the last reset, in pick order. -/
def picksSinceReset (sameName : String → String → Bool) (c : CreateChatController)
    (es : List Event) : List Dialogue :=
  observe (step sameName) see c es []

/-! ## The picked lines and the register button -/

theorem step_bottomDialogues (c : CreateChatController) (e : Event) (c' : CreateChatController)
    (h : c.step sameName e = some c') : c'.bottomDialogues = see c e c.bottomDialogues := by
  cases e with
  | didSelectRow row =>
    obtain ⟨dialogue, -, hd, rfl⟩ := step_didSelectRow h
    simp [see, hd]
  | defaultUI onScreen =>
    obtain rfl := Option.some.inj h
    exact defaultUI_bottomDialogues c onScreen
  | didTapRegisterButton =>
    obtain ⟨-, rfl⟩ := step_didTapRegisterButton h
    rfl
  | _ =>
    obtain rfl := Option.some.inj h
    rfl

/-- The register button is visible only with two picked lines or more. -/
def ButtonNeedsTwo (c : CreateChatController) : Prop :=
  c.registerButtonHidden = false → 2 ≤ c.bottomDialogues.length

theorem buttonNeedsTwo_presented : ButtonNeedsTwo presented := by
  intro h
  cases h

theorem step_buttonNeedsTwo (c : CreateChatController) (e : Event) (c' : CreateChatController)
    (hc : ButtonNeedsTwo c) (h : c.step sameName e = some c') : ButtonNeedsTwo c' := by
  cases e with
  | didSelectRow row =>
    obtain ⟨dialogue, -, -, rfl⟩ := step_didSelectRow h
    intro hvisible
    rw [setBottomDialogues_registerButtonHidden, Bool.and_eq_false_iff] at hvisible
    rw [setBottomDialogues_bottomDialogues]
    rcases hvisible with hlen | hold
    · have := of_decide_eq_false hlen
      omega
    · have := hc hold
      rw [List.length_append]
      omega
  | defaultUI onScreen =>
    obtain rfl := Option.some.inj h
    intro hvisible
    rw [defaultUI_registerButtonHidden] at hvisible
    cases hvisible
  | didTapRegisterButton =>
    obtain ⟨-, rfl⟩ := step_didTapRegisterButton h
    exact hc
  | _ =>
    obtain rfl := Option.some.inj h
    exact hc

theorem run_bottomDialogues {es : List Event} {c : CreateChatController}
    (h : run (step sameName) presented es = some c) :
    c.bottomDialogues = picksSinceReset sameName presented es :=
  run_observe (f := bottomDialogues) step_bottomDialogues h

theorem run_buttonNeedsTwo {es : List Event} {c : CreateChatController}
    (h : run (step sameName) presented es = some c) : ButtonNeedsTwo c :=
  run_invariant step_buttonNeedsTwo buttonNeedsTwo_presented h

end CreateChatController

/-! ## The stored dictionary -/

/-- The fields of a conversation document, read back. -/
theorem init_conversationData (info : ConversationInfo) (timeStamp now : Timestamp)
    (color : String) :
    Conversation.init (ChatService.conversationData info timeStamp color) now =
      { audioUrls := info.conversations
        caracterImageUrls := info.members
        topCaracterImageUrls := info.members.firstOccurrences
        dialogs := info.dialogues
        title := info.title
        timeStamp := timeStamp
        color := color } := by
  simp [Conversation.init, ChatService.conversationData, Dictionary.strings, Dictionary.string,
    Dictionary.timestamp, List.lookup_cons, List.firstOccurrences]

namespace CreateChatController

/-- A register tap while the button is visible, `self` being the controller at the end of its
animation: the tap's upload writes a dictionary that decodes to the picked lines. -/
theorem register_roundTrip (sameName : String → String → Bool) (es : List Event)
    (c self : CreateChatController) (m m' : Moment) (now : Timestamp)
    (hrun : run (step sameName) presented es = some c)
    (hvisible : c.registerButtonHidden = false)
    (hkept : self.bottomDialogues = c.bottomDialogues) :
    ∃ (data : Dictionary) (next : Bool × Moment → Running Unit) (k : _ → Running Unit),
      c.didTapRegisterButton.2.run m = .call .animate k ∧
      k (self, m') = .call (.setData .conversations m'.documentID data) next ∧
      let picks := picksSinceReset sameName presented es
      let conversation := Conversation.init data now
      2 ≤ picks.length ∧
      conversation.audioUrls = picks.map (·.audioUrl) ∧
      conversation.caracterImageUrls = picks.map (·.imageUrl) ∧
      conversation.dialogs = picks.map (·.dialogue) ∧
      (conversation.topCaracterImageUrls.Nodup ∧
        (∀ url, url ∈ conversation.topCaracterImageUrls ↔ url ∈ conversation.caracterImageUrls) ∧
        conversation.topCaracterImageUrls.Pairwise fun u v =>
          conversation.caracterImageUrls.idxOf u < conversation.caracterImageUrls.idxOf v) ∧
      ∀ i < conversation.dialogs.length,
        i < conversation.audioUrls.length ∧ i < conversation.caracterImageUrls.length := by
  refine ⟨c.registeredData self m', _, _, didTapRegisterButton_run c m, rfl, ?_⟩
  have hpicks : c.bottomDialogues = picksSinceReset sameName presented es := run_bottomDialogues hrun
  have htwo : 2 ≤ c.bottomDialogues.length := run_buttonNeedsTwo hrun hvisible
  have haudio : self.selectedAudiosUrlStrings = c.bottomDialogues.map (·.audioUrl) := by
    rw [selectedAudiosUrlStrings, hkept]
  rw [registeredData, init_conversationData, haudio, ← hpicks]
  refine ⟨htwo, rfl, rfl, rfl, ⟨List.nodup_firstOccurrences _, fun url => ?_, ?_⟩, fun i hi => ?_⟩
  · exact List.mem_firstOccurrences
  · exact List.pairwise_firstOccurrences _
  · simpa using hi

/-- A line of a character. -/
def sampleLine (dialogue audioUrl : String) : Dialogue where
  dialogue := dialogue
  audioUrl := audioUrl
  timeStamp := 0
  dialogueID := dialogue
  character := "Anna"
  imageUrl := "image of Anna"
  characterID := "anna"

/-- The character of the line. -/
def sampleCharacter : Character := ⟨"Anna", "image of Anna", 0, "anna"⟩

/-- Select a character with two lines and pick both. -/
def sampleRun : List Event :=
  [.fetchDialogues [sampleLine "Hello" "audio 1", sampleLine "Goodbye" "audio 2"],
   .selectCharacter sampleCharacter, .didSelectRow 1, .didSelectRow 0]

theorem register_roundTrip_sampleRun :
    ∃ (c : CreateChatController) (data : Dictionary) (next : Bool × Moment → Running Unit)
      (k : CreateChatController × Moment → Running Unit),
      c.didTapRegisterButton.2.run ⟨1, "id", "uuid", 0⟩ = .call .animate k ∧
      k (c, ⟨2, "id", "uuid", 0⟩) = .call (.setData .conversations "id" data) next ∧
      (Conversation.init data 3).dialogs = ["Goodbye", "Hello"] := by
  have hrun : ∃ c, run (step (· == ·)) presented sampleRun = some c ∧
      c.registerButtonHidden = false := ⟨_, rfl, rfl⟩
  obtain ⟨c, hrun, hvisible⟩ := hrun
  obtain ⟨data, next, k, hk, hnext, -, -, -, hdialogs, -⟩ :=
    register_roundTrip (· == ·) sampleRun c c ⟨1, "id", "uuid", 0⟩ ⟨2, "id", "uuid", 0⟩ 3 hrun
      hvisible rfl
  refine ⟨c, data, next, k, hk, hnext, ?_⟩
  rw [hdialogs]
  rfl

end CreateChatController

end DialogueApp
