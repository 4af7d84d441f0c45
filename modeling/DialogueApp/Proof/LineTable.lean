import DialogueApp.Controllers.CreateChatController

/-!
# The line table and its rows

Every function that assigns `selectedDialogues` reloads the table, `defaultUI` apart.  A reset clears
the lines when it reaches the end of its loop, so when each of their rows has a cell on screen; the
table then still offers the rows.
-/

namespace DialogueApp.CreateChatController

open Runs

variable {sameName : String → String → Bool}

/-- The table has as many rows as there are selected lines, so no tap on a row traps. -/
def OffersItsRows (c : CreateChatController) : Prop :=
  c.tableRows = c.selectedDialogues.length ∧ ∀ row < c.tableRows, (c.didSelectRowAt row).isSome

theorem offersItsRows_iff {c : CreateChatController} :
    c.OffersItsRows ↔ c.tableRows = c.selectedDialogues.length := by
  refine ⟨And.left, fun h => ⟨h, fun row hrow => ?_⟩⟩
  have hget : row < c.selectedDialogues.length := by omega
  simp [didSelectRowAt, hget]

theorem defaultUI_tableRows (c : CreateChatController) (onScreen : ℕ → Bool) :
    (c.defaultUI onScreen).tableRows = c.tableRows := by
  unfold defaultUI
  dsimp only
  split_ifs <;> simp

theorem clearsEveryRow_congr {c d : CreateChatController} {onScreen : ℕ → Bool}
    (hlines : d.selectedDialogues = c.selectedDialogues) (hrows : d.tableRows = c.tableRows) :
    d.clearsEveryRow onScreen = c.clearsEveryRow onScreen := by
  have hcells : d.cellForRow onScreen = c.cellForRow onScreen := by
    funext row
    rw [cellForRow, cellForRow, hrows]
  rw [clearsEveryRow, clearsEveryRow, hlines, hcells]

theorem defaultUI_selectedDialogues (c : CreateChatController) (onScreen : ℕ → Bool) :
    (c.defaultUI onScreen).selectedDialogues =
      if c.clearsEveryRow onScreen then [] else c.selectedDialogues := by
  unfold defaultUI
  dsimp only
  rw [clearsEveryRow_congr (c := c) (by simp) (by simp)]
  split_ifs <;> simp

theorem clearsEveryRow_iff {c : CreateChatController} {onScreen : ℕ → Bool}
    (hrows : c.selectedDialogues.length ≤ c.tableRows) :
    c.clearsEveryRow onScreen = true ↔ ∀ row < c.selectedDialogues.length, onScreen row = true := by
  simp only [clearsEveryRow, cellForRow, List.all_eq_true, List.mem_range, Bool.and_eq_true,
    decide_eq_true_eq]
  exact forall₂_congr fun row hrow => and_iff_right (Nat.lt_of_lt_of_le hrow hrows)

/-- The condition under which an event keeps the table's rows: a reset finds no line selected, or a
line whose row is off screen. -/
def KeepsTable (c : CreateChatController) : Event → Prop
  | .defaultUI onScreen =>
    c.selectedDialogues = [] ∨ ∃ row < c.selectedDialogues.length, onScreen row = false
  | _ => True

theorem defaultUI_offersItsRows {c : CreateChatController} (onScreen : ℕ → Bool)
    (hrows : c.tableRows = c.selectedDialogues.length) :
    (c.defaultUI onScreen).OffersItsRows ↔ KeepsTable c (.defaultUI onScreen) := by
  rw [offersItsRows_iff, defaultUI_tableRows, defaultUI_selectedDialogues, hrows]
  by_cases hclears : c.clearsEveryRow onScreen = true
  · rw [if_pos hclears, List.length_nil, List.length_eq_zero_iff, KeepsTable]
    rw [clearsEveryRow_iff (Nat.le_of_eq hrows.symm)] at hclears
    constructor
    · exact Or.inl
    · rintro (hnone | ⟨row, hrow, hoff⟩)
      · exact hnone
      · rw [hclears row hrow] at hoff
        cases hoff
  · rw [if_neg hclears]
    refine iff_of_true rfl (Or.inr ?_)
    rw [clearsEveryRow_iff (Nat.le_of_eq hrows.symm)] at hclears
    simp only [not_forall] at hclears
    obtain ⟨row, hrow, hoff⟩ := hclears
    exact ⟨row, hrow, Bool.eq_false_iff.2 hoff⟩

theorem step_offersItsRows (c : CreateChatController) (e : Event) (c' : CreateChatController)
    (hc : c.OffersItsRows) (h : c.step sameName e = some c') :
    c'.OffersItsRows ↔ KeepsTable c e := by
  have hrows := hc.1
  cases e with
  | defaultUI onScreen =>
    obtain rfl := Option.some.inj h
    exact defaultUI_offersItsRows onScreen hrows
  | didSelectRow row =>
    obtain ⟨dialogue, -, -, rfl⟩ := step_didSelectRow h
    refine iff_of_true (offersItsRows_iff.2 ?_) trivial
    simpa using hrows
  | didTapRegisterButton =>
    obtain ⟨-, rfl⟩ := step_didTapRegisterButton h
    exact iff_of_true (offersItsRows_iff.2 hrows) trivial
  | selectCharacter character | updateCharacter newInfo | addedDialogue dialogues selected =>
    -- the writers that reload
    obtain rfl := Option.some.inj h
    exact iff_of_true (offersItsRows_iff.2 rfl) trivial
  | _ =>
    obtain rfl := Option.some.inj h
    exact iff_of_true (offersItsRows_iff.2 hrows) trivial

theorem offersItsRows_presented : presented.OffersItsRows := offersItsRows_iff.2 rfl

/-- In every run, the table offers only rows that are there after every event exactly when every
reset meets `KeepsTable`. -/
theorem tableOffersItsRows_iff (sameName : String → String → Bool) (es : List Event) :
    EveryState (step sameName) OffersItsRows presented es ↔
      AllSteps (step sameName) KeepsTable presented es :=
  everyState_iff_allSteps (I := fun _ => True) (fun _ _ _ _ _ => trivial)
    (fun c e c' _ => step_offersItsRows c e c') trivial offersItsRows_presented

/-- Select a character with one line and present the screen again while its row is visible. -/
def reopenWithOneLine : List Event :=
  [.fetchDialogues [⟨"Hello", "audio", 0, "line", "Anna", "image", "anna"⟩],
   .selectCharacter ⟨"Anna", "image", 0, "anna"⟩, .defaultUI fun _ => true]

/-- The table then offers a row, and a tap on it traps. -/
theorem not_offersItsRows_reopenWithOneLine :
    ¬ EveryState (step (· == ·)) OffersItsRows presented reopenWithOneLine ∧
      ∃ c, run (step (· == ·)) presented reopenWithOneLine = some c ∧ 0 < c.tableRows ∧
        c.didSelectRowAt 0 = none := by
  constructor
  · intro h
    have hlast := (((h.2 _ rfl).2 _ rfl).2 _ rfl).1
    cases hlast
  · exact ⟨_, rfl, by decide, rfl⟩

end DialogueApp.CreateChatController
