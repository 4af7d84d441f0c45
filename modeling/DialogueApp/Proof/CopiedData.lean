import DialogueApp.Proof.RoundTrip
import DialogueApp.Proof.WorldInvariant

/-!
# Copied data and media

The two laws of the store that hold in every interleaving of the clients, whatever succeeds or fails.
-/

namespace DialogueApp

open Runs

namespace Backend

variable {names : Names} {frozen paired : Prop} {b : Backend}

/-- A dialogue document and a character document with one id agree on the name and the picture. -/
theorem Consistent.same_character (hb : b.Consistent names frozen paired) {d c : Document}
    (hd : d ∈ b.dialogues) (hc : c ∈ b.characters)
    (hid : d.data.lookup "characterID" = c.data.lookup "characterID") :
    d.data.lookup "character" = c.data.lookup "character" ∧
      d.data.lookup "imageUrl" = c.data.lookup "imageUrl" := by
  obtain ⟨name, imageUrl, timeStamp, hcdata, -⟩ := hb.character_data c hc
  obtain ⟨characterID, text, audioUrl, name', imageUrl', timeStamp', hddata, -, -, hlink⟩ :=
    hb.dialogue_data d hd
  have hsame : characterID = c.documentID := by
    rw [hddata, hcdata] at hid
    simpa [DialogueService.dialogueData, CharacterService.characterData] using hid
  subst hsame
  obtain ⟨i, hi⟩ := hb.character_owner c hc
  rcases hlink with ⟨timeStamp'', hmem⟩ | ⟨-, j, -, hj, hnone⟩
  · have hc' := hb.character_unique i c hc _ hmem hi hi
    rw [hddata, hc']
    exact ⟨rfl, rfl⟩
  · exact absurd ⟨c, hc, hj⟩ hnone

/-- A decoded line is some document's. -/
theorem Consistent.document_of_known (hb : b.Consistent names frozen paired) {d : Dialogue}
    (hd : b.KnownDialogue d) :
    ∃ document ∈ b.dialogues, document.data.lookup "audioUrl" = some (.string d.audioUrl) ∧
      document.data.lookup "imageUrl" = some (.string d.imageUrl) ∧
      document.data.lookup "dialogue" = some (.string d.dialogue) ∧
      b.Present d.audioUrl ∧ b.Present d.imageUrl := by
  obtain ⟨document, hmem, now, rfl⟩ := hd
  obtain ⟨characterID, text, audioUrl, name, imageUrl, timeStamp, hdata, himage, haudio, -⟩ :=
    hb.dialogue_data document hmem
  refine ⟨document, hmem, ?_⟩
  rw [hdata]
  exact ⟨rfl, rfl, rfl, haudio, himage⟩

/-- Every line of a conversation is a dialogue document. -/
theorem Consistent.conversation_lines (hb : b.Consistent names True paired) {v : Document}
    (hv : v ∈ b.conversations) :
    ∃ audioUrls caracterImageUrls dialogs : List String,
      v.data.lookup "audioUrls" = some (.strings audioUrls) ∧
      v.data.lookup "caracterImageUrls" = some (.strings caracterImageUrls) ∧
      v.data.lookup "dialogs" = some (.strings dialogs) ∧
      audioUrls.length = dialogs.length ∧ caracterImageUrls.length = dialogs.length ∧
      ∀ i < dialogs.length, ∃ d ∈ b.dialogues,
        d.data.lookup "audioUrl" = audioUrls[i]?.map .string ∧
        d.data.lookup "imageUrl" = caracterImageUrls[i]?.map .string ∧
        d.data.lookup "dialogue" = dialogs[i]?.map .string := by
  obtain ⟨picks, picks', title, color, timeStamp, hfrozen, hknown, hdata⟩ :=
    hb.conversation_data v hv
  obtain rfl := hfrozen trivial
  refine ⟨_, _, _, by rw [hdata]; rfl, by rw [hdata]; rfl, by rw [hdata]; rfl, by simp, by simp, ?_⟩
  intro i hi
  rw [List.length_map] at hi
  have hmem : picks'[i] ∈ picks' ++ picks' := List.mem_append_left _ (List.getElem_mem hi)
  obtain ⟨d, hd, haudio, himage, hdialogue, -⟩ := hb.document_of_known (hknown _ hmem)
  refine ⟨d, hd, ?_⟩
  simp only [List.getElem?_map, List.getElem?_eq_getElem hi, Option.map_some]
  exact ⟨haudio, himage, hdialogue⟩

/-- The field is the download URL of an object in Storage. -/
def FieldPresent (b : Backend) (data : Dictionary) (key : String) : Prop :=
  ∃ url, data.lookup key = some (.string url) ∧ b.Present url

/-- Each entry of the field is the download URL of an object in Storage. -/
def EntriesPresent (b : Backend) (data : Dictionary) (key : String) : Prop :=
  ∃ urls, data.lookup key = some (.strings urls) ∧ ∀ url ∈ urls, b.Present url

theorem Consistent.conversation_media (hb : b.Consistent names frozen paired) {v : Document}
    (hv : v ∈ b.conversations) :
    b.EntriesPresent v.data "audioUrls" ∧ b.EntriesPresent v.data "caracterImageUrls" ∧
      b.EntriesPresent v.data "topCaracterImageUrls" := by
  obtain ⟨picks, picks', title, color, timeStamp, -, hknown, hdata⟩ := hb.conversation_data v hv
  have haudio : ∀ url ∈ picks'.map (·.audioUrl), b.Present url := by
    intro url hurl
    obtain ⟨d, hd, rfl⟩ := List.mem_map.1 hurl
    obtain ⟨-, -, -, -, -, hpresent, -⟩ :=
      hb.document_of_known (hknown d (List.mem_append_right _ hd))
    exact hpresent
  have himage : ∀ url ∈ picks.map (·.imageUrl), b.Present url := by
    intro url hurl
    obtain ⟨d, hd, rfl⟩ := List.mem_map.1 hurl
    obtain ⟨-, -, -, -, -, -, hpresent⟩ :=
      hb.document_of_known (hknown d (List.mem_append_left _ hd))
    exact hpresent
  refine ⟨⟨_, by rw [hdata]; rfl, haudio⟩, ⟨_, by rw [hdata]; rfl, himage⟩,
    ⟨(picks.map (·.imageUrl)).firstOccurrences, by rw [hdata]; rfl, fun url hurl => ?_⟩⟩
  exact himage url (List.mem_firstOccurrences.1 hurl)

theorem Consistent.character_media (hb : b.Consistent names frozen paired) {c : Document}
    (hc : c ∈ b.characters) : b.FieldPresent c.data "imageUrl" := by
  obtain ⟨name, imageUrl, timeStamp, hdata, himage⟩ := hb.character_data c hc
  exact ⟨imageUrl, by rw [hdata]; rfl, himage⟩

theorem Consistent.dialogue_media (hb : b.Consistent names frozen paired) {d : Document}
    (hd : d ∈ b.dialogues) :
    b.FieldPresent d.data "imageUrl" ∧ b.FieldPresent d.data "audioUrl" := by
  obtain ⟨characterID, text, audioUrl, name, imageUrl, timeStamp, hdata, himage, haudio, -⟩ :=
    hb.dialogue_data d hd
  exact ⟨⟨imageUrl, by rw [hdata]; rfl, himage⟩, ⟨audioUrl, by rw [hdata]; rfl, haudio⟩⟩

end Backend

/-! ## Steps that keep the picked lines -/

section

variable {names : Names} {url : URLParser} {client : ℕ} {b b' : Backend} {cl cl' : Client}

/-- A pick, or the reset. -/
def Client.Event.changesPicks : Client.Event → Bool
  | .didSelectRow _ => true
  | .defaultUI _ => true
  | _ => false

theorem see_screenEvent {e : Client.Event} {e' : CreateChatController.Event}
    (he : e.changesPicks = false) (h : cl.screenEvent b e = some e') (picks : List Dialogue) :
    CreateChatController.see cl.create e' picks = picks := by
  cases e with
  | fetchCharacters found now | fetchDialogues found now | editTitle text | showKeyboard height =>
    obtain rfl := Option.some.inj h
    rfl
  | selectCharacter cell =>
    obtain ⟨character, -, rfl⟩ := Option.map_eq_some_iff.1 h
    rfl
  | didSelectRow row => cases he
  | defaultUI onScreen => cases he
  | _ => cases h

/-- Only picks and resets change the picked lines. -/
theorem step_keeps_bottomDialogues {e : Client.Event} (he : e.changesPicks = false)
    (h : cl.step names url client b e = some (b', cl')) :
    cl'.create.bottomDialogues = cl.create.bottomDialogues := by
  cases Client.step_cases h with
  | @screen _ e' create hscreen hcreate =>
    show create.bottomDialogues = _
    rw [CreateChatController.step_bottomDialogues _ _ _ hcreate, see_screenEvent he hscreen]
  | answer hanswer =>
    obtain ⟨call, r, next, reply, -, -, -, call', -, rfl⟩ := Client.answer_cases hanswer
    exact Client.runCompletion_bottomDialogues call'
  | _ => rfl

end

namespace World

variable {names : Names} {url : URLParser} {disks : ℕ → Disk}

/-- The client picks the line. -/
def pick : ℕ × Client.Event := (0, .didSelectRow 0)

/-- With two picks it registers a conversation. -/
def registerConversation : List (ℕ × Client.Event) :=
  [(0, .didTapRegisterButton 0), (0, .answer 1 (success "" [])), (0, .answer 1 (success "" []))]

/-- No upload of the client waits for an answer. -/
def idle (client : ℕ) (w : World) : Bool :=
  (w.parts client).calls.all fun call => call.program.request?.isNone

theorem picksKept_of_idle {w : World} {client : ℕ} {e : Client.Event}
    (h : w.idle client = true) : PicksKept names url client w.shared (w.parts client) e := by
  rintro b' cl' - ⟨call, hmem, hanimate⟩
  have hnone := List.all_eq_true.1 h call hmem
  rw [hanimate] at hnone
  cases hnone

/-- In every run that keeps the picked lines while an animation runs, lines agree with their
characters, and conversations consist of stored lines. -/
theorem copiedData (es : List (ℕ × Client.Event)) (w : World)
    (hrun : run names url (init disks) es = some w)
    (hkept : AllSteps (step names url)
      (fun w e => PicksKept names url e.1 w.shared (w.parts e.1) e.2) (init disks) es) :
    (∀ d ∈ w.shared.dialogues, ∀ c ∈ w.shared.characters,
      d.data.lookup "characterID" = c.data.lookup "characterID" →
      d.data.lookup "character" = c.data.lookup "character" ∧
        d.data.lookup "imageUrl" = c.data.lookup "imageUrl") ∧
    ∀ v ∈ w.shared.conversations, ∃ audioUrls caracterImageUrls dialogs : List String,
      v.data.lookup "audioUrls" = some (.strings audioUrls) ∧
      v.data.lookup "caracterImageUrls" = some (.strings caracterImageUrls) ∧
      v.data.lookup "dialogs" = some (.strings dialogs) ∧
      audioUrls.length = dialogs.length ∧ caracterImageUrls.length = dialogs.length ∧
      ∀ i < dialogs.length, ∃ d ∈ w.shared.dialogues,
        d.data.lookup "audioUrl" = audioUrls[i]?.map .string ∧
        d.data.lookup "imageUrl" = caracterImageUrls[i]?.map .string ∧
        d.data.lookup "dialogue" = dialogs[i]?.map .string := by
  have hallowed : AllSteps (step names url) (Allowed names url True False)
      (init disks) es :=
    hkept.imp fun _ _ h => ⟨fun _ => h, False.elim⟩
  have hb := (run_inv hrun hallowed).1
  exact ⟨fun d hd c hc hid => hb.same_character hd hc hid, fun v hv => hb.conversation_lines hv⟩

/-- Steps that are no picks and no resets keep the picked lines. -/
theorem picksKept_of_quiet {es : List (ℕ × Client.Event)}
    (hes : ∀ e ∈ es, e.2.changesPicks = false) (w : World) :
    AllSteps (step names url) (fun w e => PicksKept names url e.1 w.shared (w.parts e.1) e.2) w es :=
  allSteps_of_forall fun e he _ _ _ hstep _ => step_keeps_bottomDialogues (hes e he) hstep

theorem picksKept_registerConversation :
    AllSteps (step Names.letters URLParser.nonempty)
      (fun w e => PicksKept Names.letters URLParser.nonempty e.1 w.shared (w.parts e.1) e.2)
      (init fun _ => .new "documents")
      (registerCharacter ++ (pick :: pick :: registerConversation)) := by
  refine allSteps_append.2 ⟨picksKept_of_quiet (by decide) _, fun t ht t' ht' => ⟨?_, ?_⟩⟩
  · have hidle : (run Names.letters URLParser.nonempty (init fun _ => .new "documents")
        registerCharacter).map (idle 0) = some true := rfl
    rw [run, ht] at hidle
    exact picksKept_of_idle (Option.some.inj hidle)
  · intro t'' ht''
    refine ⟨?_, picksKept_of_quiet (by decide) _⟩
    have hidle : (run Names.letters URLParser.nonempty (init fun _ => .new "documents")
        (registerCharacter ++ [pick])).map (idle 0) = some true := rfl
    have hpicked : Runs.run (step Names.letters URLParser.nonempty) (init fun _ => .new "documents")
        (registerCharacter ++ [pick]) = some t' := by
      rw [run_append, ht]
      exact run_cons_eq_some.2 ⟨t', ht', rfl⟩
    rw [run, hpicked] at hidle
    exact picksKept_of_idle (Option.some.inj hidle)

theorem copiedData_sample :
    ∃ w, run Names.letters URLParser.nonempty (init fun _ => .new "documents")
        (registerCharacter ++ (pick :: pick :: registerConversation)) = some w ∧
      w.shared.conversations.length = 1 ∧
      ∀ d ∈ w.shared.dialogues, ∀ c ∈ w.shared.characters,
        d.data.lookup "characterID" = c.data.lookup "characterID" →
        d.data.lookup "character" = c.data.lookup "character" ∧
          d.data.lookup "imageUrl" = c.data.lookup "imageUrl" := by
  have hrun : ∃ w, run Names.letters URLParser.nonempty (init fun _ => .new "documents")
      (registerCharacter ++ (pick :: pick :: registerConversation)) = some w ∧
      w.shared.conversations.length = 1 := ⟨_, rfl, rfl⟩
  obtain ⟨w, hrun, hone⟩ := hrun
  exact ⟨w, hrun, hone, (copiedData _ w hrun picksKept_registerConversation).1⟩

/-- In every run, each URL in a document is the download URL of an object in Storage. -/
theorem media (es : List (ℕ × Client.Event)) (w : World)
    (hrun : run names url (init disks) es = some w) :
    (∀ c ∈ w.shared.characters, w.shared.FieldPresent c.data "imageUrl") ∧
    (∀ d ∈ w.shared.dialogues,
      w.shared.FieldPresent d.data "imageUrl" ∧ w.shared.FieldPresent d.data "audioUrl") ∧
    ∀ v ∈ w.shared.conversations,
      w.shared.EntriesPresent v.data "audioUrls" ∧
      w.shared.EntriesPresent v.data "caracterImageUrls" ∧
      w.shared.EntriesPresent v.data "topCaracterImageUrls" := by
  have hb := (run_inv_false hrun).1
  exact ⟨fun c hc => hb.character_media hc, fun d hd => hb.dialogue_media hd,
    fun v hv => hb.conversation_media hv⟩

theorem media_sample :
    ∃ w, run Names.letters URLParser.nonempty (init fun _ => .new "documents")
        (registerCharacter ++ (pick :: pick :: registerConversation)) = some w ∧
      w.shared.dialogues.length = 1 ∧ w.shared.conversations.length = 1 ∧
      (∀ d ∈ w.shared.dialogues,
        w.shared.FieldPresent d.data "imageUrl" ∧ w.shared.FieldPresent d.data "audioUrl") ∧
      ∀ v ∈ w.shared.conversations, w.shared.EntriesPresent v.data "audioUrls" := by
  have hrun : ∃ w, run Names.letters URLParser.nonempty (init fun _ => .new "documents")
      (registerCharacter ++ (pick :: pick :: registerConversation)) = some w ∧
      w.shared.dialogues.length = 1 ∧ w.shared.conversations.length = 1 := ⟨_, rfl, rfl, rfl⟩
  obtain ⟨w, hrun, hline, hconversation⟩ := hrun
  obtain ⟨-, hlines, hconversations⟩ := media _ w hrun
  exact ⟨w, hrun, hline, hconversation, hlines, fun v hv => (hconversations v hv).1⟩

end World

end DialogueApp
