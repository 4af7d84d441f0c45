import DialogueApp.View.CharacterListView
import DialogueApp.Proof.ClientScreen
import DialogueApp.Proof.Selection

/-!
# The mark on the selected character

The collection view keeps which item is selected and marks its cell, the create screen keeps which
character is.  They part in three ways: the reset unselects the character and leaves the mark, an
upload selects a character and reloads the list, which has no mark then, and so has the list that
comes late.
-/

namespace DialogueApp

open Runs

namespace CharacterListView

variable {s s' : CharacterListView} {url : URLParser} {sameName : String → String → Bool}

/-- The character whose cell is marked. -/
def markedCharacter (s : CharacterListView) : Option Character :=
  s.selectedItem.bind fun item => s.delegate.listCharacters[item]?

/-- A cell shows its comment view exactly when its item is selected. -/
theorem commentViewHidden_iff {item : ℕ} {cell : CharacterListCell}
    (h : s.cellForItemAt url item = some cell) :
    cell.commentViewHidden = false ↔ s.selectedItem = some item := by
  obtain ⟨character, -, rfl⟩ := Option.map_eq_some_iff.1 h
  by_cases hitem : s.selectedItem = some item
  · simp [hitem]
  · simp [hitem]

/-- It is the character of the cell that shows its comment view. -/
theorem markedCharacter_eq_some {character : Character} :
    s.markedCharacter = some character ↔ ∃ item cell, s.cellForItemAt url item = some cell ∧
      cell.commentViewHidden = false ∧ s.delegate.listCharacters[item]? = some character := by
  constructor
  · intro h
    obtain ⟨item, hitem, hcharacter⟩ := Option.bind_eq_some_iff.1 h
    have hcell := congrArg (Option.map fun character : Character =>
      ({ imageUrl := url.parse character.imageUrl, name := character.character
         commentViewHidden := if s.selectedItem = some item then false else true }
       : CharacterListCell)) hcharacter
    exact ⟨item, _, hcell, if_pos hitem, hcharacter⟩
  · rintro ⟨item, cell, hcell, hshown, hcharacter⟩
    rw [markedCharacter, (commentViewHidden_iff hcell).1 hshown]
    exact hcharacter

/-- The marked cell is that of the selected character, and there is none where none is selected. -/
def MarksSelected (s : CharacterListView) : Prop := s.markedCharacter = s.delegate.selectedCharacter

/-- The condition on an event: no list comes while a character is selected, no upload of a character
brings one, and no reset runs through while a character is selected. -/
def KeepsMark (s : CharacterListView) : Event → Prop
  | .create (.fetchCharacters _) => s.delegate.selectedCharacter = none
  | .create (.updateCharacter newInfo) => newInfo.characters = []
  | .create (.defaultUI onScreen) =>
    s.delegate.clearsEveryRow onScreen = true → s.delegate.selectedCharacter = none
  | _ => True

/-- A change of neither list, item nor selected character. -/
theorem MarksSelected.same (h : s.MarksSelected) (hitem : s'.selectedItem = s.selectedItem)
    (hlist : s'.delegate.listCharacters = s.delegate.listCharacters)
    (hselected : s'.delegate.selectedCharacter = s.delegate.selectedCharacter) :
    s'.MarksSelected := by
  rw [MarksSelected, markedCharacter, hitem, hlist, hselected]
  exact h

theorem defaultUI_listCharacters (c : CreateChatController) (onScreen : ℕ → Bool) :
    (c.defaultUI onScreen).listCharacters = c.listCharacters := by
  unfold CreateChatController.defaultUI CreateChatController.setBottomDialogues
  dsimp only
  split_ifs <;> rfl

/-- A pick leaves list and selection alone. -/
theorem didSelectRow_lists {c c' : CreateChatController} {row : ℕ}
    (h : c.step sameName (.didSelectRow row) = some c') :
    c'.listCharacters = c.listCharacters ∧ c'.selectedCharacter = c.selectedCharacter := by
  obtain ⟨dialogue, -, -, rfl⟩ := CreateChatController.step_didSelectRow h
  refine ⟨?_, CreateChatController.setBottomDialogues_selectedCharacter _ _⟩
  unfold CreateChatController.setBottomDialogues
  dsimp only
  split_ifs <;> rfl

theorem step_marksSelected (s : CharacterListView) (e : Event) (s' : CharacterListView) (_ : True)
    (hs : s.MarksSelected) (h : s.step sameName e = some s') : s'.MarksSelected ↔ s.KeepsMark e := by
  cases e with
  | didSelectItemAt item =>
    obtain ⟨character, hcharacter, rfl⟩ := Option.map_eq_some_iff.1 h
    exact iff_of_true hcharacter trivial
  | create e =>
    have hselection : isSelection e = false := by
      cases hselection : isSelection e with
      | true =>
        simp only [step, hselection, if_true] at h
        cases h
      | false => rfl
    simp only [step, hselection, Bool.false_eq_true, if_false] at h
    obtain ⟨c, hc, rfl⟩ := Option.map_eq_some_iff.1 h
    cases e with
    | selectCharacter character => cases hselection
    | fetchCharacters characters =>
      obtain rfl := Option.some.inj hc
      show none = s.delegate.selectedCharacter ↔ s.delegate.selectedCharacter = none
      exact eq_comm
    | updateCharacter newInfo =>
      obtain rfl := Option.some.inj hc
      show none = newInfo.characters.head? ↔ newInfo.characters = []
      rw [eq_comm, List.head?_eq_none_iff]
    | defaultUI onScreen =>
      obtain rfl := Option.some.inj hc
      show s.selectedItem.bind (fun item => (s.delegate.defaultUI onScreen).listCharacters[item]?) =
          (s.delegate.defaultUI onScreen).selectedCharacter ↔
        s.KeepsMark (.create (.defaultUI onScreen))
      have hmarked : s.selectedItem.bind (fun item => s.delegate.listCharacters[item]?) =
          s.delegate.selectedCharacter := hs
      rw [defaultUI_listCharacters, CreateChatController.defaultUI_selectedCharacter, hmarked,
        KeepsMark]
      split_ifs with hclears
      · exact ⟨fun hnone _ => hnone, fun hnone => hnone hclears⟩
      · exact iff_of_true rfl fun hclears' => absurd hclears' hclears
    | didSelectRow row =>
      obtain ⟨hlist, hselected⟩ := didSelectRow_lists hc
      exact iff_of_true (hs.same rfl hlist hselected) trivial
    | didTapRegisterButton =>
      obtain ⟨-, rfl⟩ := CreateChatController.step_didTapRegisterButton hc
      exact iff_of_true (hs.same rfl rfl rfl) trivial
    | fetchDialogues | addedDialogue | editTitle | showKeyboard =>
      obtain rfl := Option.some.inj hc
      exact iff_of_true (hs.same rfl rfl rfl) trivial

theorem everyState_marksSelected {es : List Event} :
    EveryState (step sameName) MarksSelected presented es ↔
      AllSteps (step sameName) KeepsMark presented es :=
  everyState_iff_allSteps (I := fun _ => True) (fun _ _ _ _ _ => trivial) step_marksSelected
    trivial rfl

/-- An event of the create screen that is no tap on the list. -/
theorem step_create {e : CreateChatController.Event} {delegate : CreateChatController}
    (hselection : isSelection e = false) (h : s.delegate.step sameName e = some delegate) :
    ∃ s', s.step sameName (.create e) = some s' ∧ s'.delegate = delegate := by
  refine ⟨⟨delegate, if reloads e then none else s.selectedItem⟩, ?_, rfl⟩
  simp only [step, hselection, Bool.false_eq_true, if_false, h, Option.map_some]

end CharacterListView

/-! ## The list of a client -/

namespace Client

variable {names : Names} {url : URLParser} {client : ℕ} {b b' : Backend} {cl cl' : Client}

/-- What an event of the client is for its character list. -/
def listEvent (names : Names) (url : URLParser) (client : ℕ) (b : Backend) (cl : Client)
    (e : Event) : Option CharacterListView.Event :=
  match e with
  | .selectCharacter cell => some (.didSelectItemAt cell)
  | e => (cl.createEvent names url client b e).map .create

/-- Only a tap on the list is one for the create screen. -/
theorem createEvent_isSelection {e : Event} {e' : CreateChatController.Event}
    (he : ∀ cell, e ≠ .selectCharacter cell)
    (h : cl.createEvent names url client b e = some e') :
    CharacterListView.isSelection e' = false := by
  have hcompletion : ∀ (cl : Client) call, cl.completionEvent call = some e' →
      CharacterListView.isSelection e' = false := by
    intro cl call hcall
    unfold completionEvent at hcall
    split at hcall
    · split at hcall
      · obtain rfl := Option.some.inj hcall
        rfl
      · split at hcall
        · obtain rfl := Option.some.inj hcall
          rfl
        · cases hcall
      · cases hcall
    · cases hcall
  cases e with
  | selectCharacter cell => exact absurd rfl (he cell)
  | answer k o =>
    obtain ⟨y, -, hy⟩ := Option.bind_eq_some_iff.1 h
    obtain ⟨call, -, hcall⟩ := Option.bind_eq_some_iff.1 hy
    exact hcompletion cl call hcall
  | fetchCharacters | fetchDialogues | didSelectRow | defaultUI | editTitle | showKeyboard
  | didTapRegisterButton =>
    obtain rfl := Option.some.inj h
    rfl
  | _ => cases h

/-- One event of the client is its event of the character list. -/
theorem step_listEvent {e : Event} (hstep : cl.step names url client b e = some (b', cl'))
    {s : CharacterListView} (hs : s.delegate = cl.create) :
    ∃ s', run (CharacterListView.step names.sameName) s
      (cl.listEvent names url client b e).toList = some s' ∧
      s'.delegate = cl'.create := by
  by_cases htap : ∃ cell, e = .selectCharacter cell
  · obtain ⟨cell, rfl⟩ := htap
    cases hcell : cl.create.listCharacters[cell]? with
    | none =>
      simp only [step, hcell] at hstep
      cases hstep
    | some character =>
      simp only [step, hcell] at hstep
      obtain ⟨create, hcreate, hclient⟩ := Option.map_eq_some_iff.1 hstep
      obtain ⟨-, rfl⟩ := Prod.mk.inj hclient
      obtain rfl := Option.some.inj hcreate
      refine ⟨⟨s.delegate.selectCharacter character, some cell⟩, run_cons_eq_some.2 ⟨_, ?_, rfl⟩, ?_⟩
      · rw [CharacterListView.step, hs, hcell]
        rfl
      · rw [hs]
  · have hother : ∀ cell, e ≠ .selectCharacter cell := fun cell heq => htap ⟨cell, heq⟩
    have hevent : cl.listEvent names url client b e =
        (cl.createEvent names url client b e).map .create := by
      cases e with
      | selectCharacter cell => exact absurd rfl (hother cell)
      | _ => rfl
    have hcreate := step_createEvent hstep
    rw [hevent]
    cases he : cl.createEvent names url client b e with
    | none =>
      rw [he] at hcreate
      exact ⟨s, rfl, hs.trans (Option.some.inj hcreate)⟩
    | some e' =>
      rw [he] at hcreate
      obtain ⟨create, hcreate, hlast⟩ := run_cons_eq_some.1 hcreate
      obtain rfl := Option.some.inj hlast
      obtain ⟨s', hs', hdelegate⟩ := CharacterListView.step_create
        (createEvent_isSelection hother he) (hs ▸ hcreate)
      exact ⟨s', run_cons_eq_some.2 ⟨s', hs', rfl⟩, hdelegate⟩

end Client

namespace World

variable {names : Names} {url : URLParser} {disks : ℕ → Disk} {w w' : World}

/-- What an event of the world is for the character list of the client. -/
def listEvent (names : Names) (url : URLParser) (client : ℕ) (w : World) (e : ℕ × Client.Event) :
    List CharacterListView.Event :=
  if e.1 = client then ((w.parts client).listEvent names url client w.shared e.2).toList else []

/-- The run of the character list of the client within a run of the world. -/
def listEvents (names : Names) (url : URLParser) (client : ℕ) (w : World)
    (es : List (ℕ × Client.Event)) : List CharacterListView.Event :=
  trace (step names url) (listEvent names url client) w es

theorem step_listEvent {client : ℕ} {e : ℕ × Client.Event} (hstep : step names url w e = some w')
    {s : CharacterListView} (hs : s.delegate = (w.parts client).create) :
    ∃ s', Runs.run (CharacterListView.step names.sameName) s
      (listEvent names url client w e) = some s' ∧
      s'.delegate = (w'.parts client).create := by
  obtain ⟨client', e⟩ := e
  obtain ⟨hclient, hparts⟩ := Shared.advance_eq_some hstep
  by_cases hsame : client' = client
  · subst hsame
    rw [listEvent, if_pos rfl]
    exact Client.step_listEvent hclient hs
  · rw [listEvent, if_neg hsame, hparts client (Ne.symm hsame)]
    exact ⟨s, rfl, hs⟩

/-- In every run of the world, the character list of every client has the create screen of the client
as its delegate, and the marked cell is that of the selected character in all its states if and only
if no list comes late, no upload brings a character and no reset unselects one. -/
theorem marksSelected_iff (es : List (ℕ × Client.Event)) (w : World)
    (hrun : run names url (init disks) es = some w) (client : ℕ) :
    ∃ s, Runs.run (CharacterListView.step names.sameName) CharacterListView.presented
        (listEvents names url client (init disks) es) = some s ∧
      s.delegate = (w.parts client).create ∧
      (EveryState (CharacterListView.step names.sameName) CharacterListView.MarksSelected
          CharacterListView.presented (listEvents names url client (init disks) es) ↔
        AllSteps (CharacterListView.step names.sameName) CharacterListView.KeepsMark
          CharacterListView.presented (listEvents names url client (init disks) es)) := by
  obtain ⟨s, hs, hdelegate⟩ := run_simulates
    (R := fun (w : World) (s : CharacterListView) => s.delegate = (w.parts client).create)
    (t := CharacterListView.presented) (fun _ _ _ _ hs hstep => step_listEvent hstep hs) rfl hrun
  exact ⟨s, hs, hdelegate, CharacterListView.everyState_marksSelected⟩

/-- A tap on the only character and the reset after the registration. -/
theorem marksSelected_sample :
    ∃ w, run Names.letters URLParser.nonempty (init fun _ => .new "documents")
        (registerCharacter ++ [(0, .defaultUI fun _ => true)]) = some w ∧
      ∃ s, Runs.run (CharacterListView.step (· == ·)) CharacterListView.presented
        (listEvents Names.letters URLParser.nonempty 0 (init fun _ => .new "documents")
          (registerCharacter ++ [(0, .defaultUI fun _ => true)])) = some s ∧
      s.delegate = (w.parts 0).create ∧
      (EveryState (CharacterListView.step (· == ·)) CharacterListView.MarksSelected
          CharacterListView.presented (listEvents Names.letters URLParser.nonempty 0
            (init fun _ => .new "documents") (registerCharacter ++ [(0, .defaultUI fun _ => true)])) ↔
        AllSteps (CharacterListView.step (· == ·)) CharacterListView.KeepsMark
          CharacterListView.presented (listEvents Names.letters URLParser.nonempty 0
            (init fun _ => .new "documents")
            (registerCharacter ++ [(0, .defaultUI fun _ => true)]))) := by
  have hrun : ∃ w, run Names.letters URLParser.nonempty (init fun _ => .new "documents")
      (registerCharacter ++ [(0, .defaultUI fun _ => true)]) = some w := ⟨_, rfl⟩
  obtain ⟨w, hrun⟩ := hrun
  exact ⟨w, hrun, marksSelected_iff _ w hrun 0⟩

end World

end DialogueApp
