import DialogueApp.Proof.LineTable

/-!
# The lines of the selected character

`selectedDialogues` is a cached filter of two variables, the held dialogues and the selected
character.  `selectCharacter` and the completion of a further line compute it anew, the latter for
the character that was selected when its screen was opened.  `fetchDialogues` replaces the dialogues
under it, and `updateCharacter` fills it by the character's name.
-/

namespace DialogueApp.CreateChatController

open Runs

variable {sameName : String → String → Bool}

/-- The lines of a character, in order. -/
def linesOf (dialogues : List Dialogue) (character : Character) : List Dialogue :=
  dialogues.filter (·.characterID == character.characterID)

/-- A line of the character in front of the others. -/
theorem linesOf_cons_self {line : Dialogue} {dialogues : List Dialogue} {character : Character}
    (h : line.characterID = character.characterID) :
    linesOf (line :: dialogues) character = line :: linesOf dialogues character :=
  List.filter_cons_of_pos (beq_iff_eq.2 h)

/-- A line of another character does not count. -/
theorem linesOf_cons_of_ne {line : Dialogue} {dialogues : List Dialogue} {character : Character}
    (h : line.characterID ≠ character.characterID) :
    linesOf (line :: dialogues) character = linesOf dialogues character :=
  List.filter_cons_of_neg fun heq => h (beq_iff_eq.1 heq)

/-- Lines of characters with different ids are different lines. -/
theorem linesOf_eq_linesOf_iff {dialogues : List Dialogue} {a b : Character} :
    linesOf dialogues a = linesOf dialogues b ↔
      a.characterID = b.characterID ∨ (linesOf dialogues a = [] ∧ linesOf dialogues b = []) := by
  constructor
  · intro h
    by_cases hid : a.characterID = b.characterID
    · exact Or.inl hid
    · have hnone : linesOf dialogues a = [] := by
        rw [List.eq_nil_iff_forall_not_mem]
        intro line hline
        have ha := (List.mem_filter.1 hline).2
        rw [h] at hline
        have hb := (List.mem_filter.1 hline).2
        exact hid ((beq_iff_eq.1 ha).symm.trans (beq_iff_eq.1 hb))
      exact Or.inr ⟨hnone, h.symm.trans hnone⟩
  · rintro (hid | ⟨ha, hb⟩)
    · rw [linesOf, linesOf, hid]
    · rw [ha, hb]

/-! ## Selecting by registration -/

/-- A loop that keeps the last match, and what was there before where nothing matches. -/
theorem foldl_lastMatch {α : Type*} (p : α → Bool) (l before : List α) :
    l.foldl (fun kept a => if p a then [a] else kept) before =
      (l.filter p).getLast?.elim before fun a => [a] := by
  induction l generalizing before with
  | nil => rfl
  | cons a l ih =>
    rw [List.foldl_cons, ih, List.filter_cons]
    by_cases ha : p a = true
    · rw [if_pos ha, if_pos ha, List.getLast?_cons]
      cases (l.filter p).getLast? <;> rfl
    · rw [if_neg ha, if_neg ha]

theorem updateCharacter_selectedDialogues (c : CreateChatController) (first : Character)
    (rest : List Character) (dialogues : List Dialogue) :
    (c.updateCharacter sameName ⟨first :: rest, dialogues⟩).selectedDialogues =
      (dialogues.filter fun line => sameName line.character first.character).getLast?.elim
        c.selectedDialogues fun line => [line] :=
  foldl_lastMatch (fun line : Dialogue => sameName line.character first.character) dialogues
    c.selectedDialogues

/-- The lists of a registration, put in place. -/
def install (c : CreateChatController) (newInfo : NewInfo) : CreateChatController :=
  { c with listCharacters := newInfo.characters, characters := newInfo.characters,
           dialogues := newInfo.dialogues }

/-- The first character has one line, and it is the last line under its name; or no line is under
its name, and the lines shown so far are its lines. -/
def OneLineUnderItsName (sameName : String → String → Bool) (c : CreateChatController)
    (first : Character) (dialogues : List Dialogue) : Prop :=
  match (dialogues.filter fun line => sameName line.character first.character).getLast? with
  | some line => linesOf dialogues first = [line]
  | none => linesOf dialogues first = c.selectedDialogues

theorem updateCharacter_linesOf_iff (sameName : String → String → Bool) (c : CreateChatController)
    (first : Character) (rest : List Character) (dialogues : List Dialogue) :
    (c.updateCharacter sameName ⟨first :: rest, dialogues⟩).selectedDialogues =
      linesOf dialogues first ↔ c.OneLineUnderItsName sameName first dialogues := by
  rw [updateCharacter_selectedDialogues, OneLineUnderItsName]
  cases (dialogues.filter fun line => sameName line.character first.character).getLast? with
  | some line => exact eq_comm
  | none => exact eq_comm

/-- Selecting by registration leaves what installing the lists and tapping the first character
leaves exactly when the first character has `OneLineUnderItsName`. -/
theorem updateCharacter_agrees_iff (sameName : String → String → Bool) (c : CreateChatController)
    (first : Character) (rest : List Character) (dialogues : List Dialogue) :
    let newInfo : NewInfo := ⟨first :: rest, dialogues⟩
    let registered := c.updateCharacter sameName newInfo
    let tapped := (c.install newInfo).selectCharacter first
    (registered.selectedCharacter = tapped.selectedCharacter ∧
      registered.selectedDialogues = tapped.selectedDialogues) ↔
      c.OneLineUnderItsName sameName first dialogues := by
  rw [← updateCharacter_linesOf_iff sameName c first rest dialogues]
  exact and_iff_right rfl

/-- Two lines of a new character: the registration keeps the last one only. -/
theorem updateCharacter_disagrees_twoLines :
    ∃ newInfo first, newInfo.characters.head? = some first ∧
      (presented.updateCharacter (· == ·) newInfo).selectedDialogues ≠
        ((presented.install newInfo).selectCharacter first).selectedDialogues := by
  refine ⟨⟨[⟨"Anna", "image", 0, "anna"⟩],
    [⟨"Hello", "audio", 0, "line 1", "Anna", "image", "anna"⟩,
     ⟨"Goodbye", "audio", 0, "line 2", "Anna", "image", "anna"⟩]⟩, _, rfl, ?_⟩
  decide

/-! ## Every event -/

/-- The lines shown are those held for the selected character. -/
def ShowsSelected (c : CreateChatController) : Prop :=
  ∀ character, c.selectedCharacter = some character →
    c.selectedDialogues = linesOf c.dialogues character

/-- The condition under which an event keeps the lines shown: fetched dialogues hold, for the
selected character, the same lines as the dialogues held before; a further line has been added for a
character with the selected one's id, or neither has lines; a registration has
`OneLineUnderItsName`. -/
def KeepsLines (sameName : String → String → Bool) (c : CreateChatController) : Event → Prop
  | .fetchDialogues dialogues =>
    ∀ character, c.selectedCharacter = some character →
      linesOf dialogues character = linesOf c.dialogues character
  | .addedDialogue dialogues captured =>
    ∀ character, c.selectedCharacter = some character →
      captured.characterID = character.characterID ∨
        (linesOf dialogues captured = [] ∧ linesOf dialogues character = [])
  | .updateCharacter newInfo =>
    ∀ first, newInfo.characters.head? = some first →
      c.OneLineUnderItsName sameName first newInfo.dialogues
  | _ => True

theorem defaultUI_selectedCharacter (c : CreateChatController) (onScreen : ℕ → Bool) :
    (c.defaultUI onScreen).selectedCharacter =
      if c.clearsEveryRow onScreen then none else c.selectedCharacter := by
  unfold defaultUI
  dsimp only
  rw [clearsEveryRow_congr (c := c) (by simp) (by simp)]
  split_ifs <;> simp

theorem defaultUI_dialogues (c : CreateChatController) (onScreen : ℕ → Bool) :
    (c.defaultUI onScreen).dialogues = c.dialogues := by
  unfold defaultUI
  dsimp only
  split_ifs <;> simp

theorem step_showsSelected (c : CreateChatController) (e : Event) (c' : CreateChatController)
    (hc : c.ShowsSelected) (h : c.step sameName e = some c') :
    c'.ShowsSelected ↔ c.KeepsLines sameName e := by
  cases e with
  | fetchDialogues dialogues =>
    obtain rfl := Option.some.inj h
    refine forall₂_congr fun character hsel => ?_
    rw [← hc character hsel]
    exact eq_comm
  | addedDialogue dialogues captured =>
    obtain rfl := Option.some.inj h
    exact forall₂_congr fun character _ => linesOf_eq_linesOf_iff
  | updateCharacter newInfo =>
    obtain rfl := Option.some.inj h
    obtain ⟨_ | ⟨first, rest⟩, dialogues⟩ := newInfo
    · exact iff_of_true nofun nofun
    · have hiff := updateCharacter_linesOf_iff sameName c first rest dialogues
      constructor
      · rintro hshows _ ⟨⟩
        exact hiff.1 (hshows first rfl)
      · rintro hone _ ⟨⟩
        exact hiff.2 (hone first rfl)
  | selectCharacter character =>
    obtain rfl := Option.some.inj h
    refine iff_of_true ?_ trivial
    rintro _ ⟨⟩
    rfl
  | defaultUI onScreen =>
    obtain rfl := Option.some.inj h
    refine iff_of_true (fun character hsel => ?_) trivial
    rw [defaultUI_selectedCharacter] at hsel
    rw [defaultUI_selectedDialogues, defaultUI_dialogues]
    by_cases hclears : c.clearsEveryRow onScreen = true
    · rw [if_pos hclears] at hsel
      cases hsel
    · rw [if_neg hclears] at hsel ⊢
      exact hc character hsel
  | didSelectRow row =>
    obtain ⟨dialogue, -, -, rfl⟩ := step_didSelectRow h
    refine iff_of_true (fun character hsel => ?_) trivial
    simp only [setBottomDialogues_selectedCharacter, setBottomDialogues_selectedDialogues,
      setBottomDialogues_dialogues] at hsel ⊢
    exact hc character hsel
  | didTapRegisterButton =>
    obtain ⟨-, rfl⟩ := step_didTapRegisterButton h
    exact iff_of_true hc trivial
  | _ =>
    obtain rfl := Option.some.inj h
    exact iff_of_true hc trivial

/-- In every run, the lines shown are those of the selected character after every event exactly
when every event meets `KeepsLines`. -/
theorem linesShown_iff (sameName : String → String → Bool) (es : List Event) :
    EveryState (step sameName) ShowsSelected presented es ↔
      AllSteps (step sameName) (KeepsLines sameName) presented es :=
  everyState_iff_allSteps (I := fun _ => True) (fun _ _ _ _ _ => trivial)
    (fun c e c' _ => step_showsSelected c e c') trivial nofun

/-- A character is selected before the first dialogues have arrived. -/
def selectBeforeDialogues : List Event :=
  [.fetchCharacters [⟨"Anna", "image", 0, "anna"⟩],
   .selectCharacter ⟨"Anna", "image", 0, "anna"⟩,
   .fetchDialogues [⟨"Hello", "audio", 0, "line", "Anna", "image", "anna"⟩]]

theorem not_linesShown_selectBeforeDialogues :
    ¬ EveryState (step (· == ·)) ShowsSelected presented selectBeforeDialogues := by
  intro h
  have hlast := (((h.2 _ rfl).2 _ rfl).2 _ rfl) _ rfl
  revert hlast
  decide

end DialogueApp.CreateChatController
