import DialogueApp.Controllers.CreateChatController
import DialogueApp.Lib.History
import Mathlib.Algebra.Order.Ring.Rat
import Mathlib.Data.List.Induction
import Mathlib.Tactic.Linarith

/-!
# The create screen under the keyboard

Each keyboard notification lifts the view by its own height, each register tap lowers it by the last
height remembered, which nothing clears.  The heights shown since the last tap (`shownSinceTap`) and
the last height of all (`lastHeight`) are read off the events; a tap puts the view back in its place
when the two agree.
-/

namespace DialogueApp.CreateChatController

open Runs History

variable {sameName : String → String → Bool}

/-- How an event changes the heights shown since the last register tap. -/
def seeShown (shown : Rat) : Event → Rat
  | .showKeyboard height => shown + height
  | .didTapRegisterButton => 0
  | _ => shown

/-- The sum of the heights shown since the last register tap. -/
def shownSinceTap (es : List Event) : Rat := es.foldl seeShown 0

/-- How an event changes the height of the last keyboard. -/
def seeHeight (last : Rat) : Event → Rat
  | .showKeyboard height => height
  | _ => last

/-- The height of the last keyboard shown, `0` where there was none. -/
def lastHeight (es : List Event) : Rat := es.foldl seeHeight 0

/-- `Q` holds of the events before each register tap. -/
def AtEveryTap (Q : List Event → Prop) : List Event → Prop :=
  EachAfter fun before e => e = .didTapRegisterButton → Q before

/-- After every register tap the view is where it was before the first keyboard. -/
def ReturnsToItsPlace (sameName : String → String → Bool) : List Event → Prop :=
  AtEveryTap fun before => ∀ c : CreateChatController,
    run (step sameName) presented (before ++ [.didTapRegisterButton]) = some c → c.originY = 0

/-- At every register tap, the heights shown since the tap before add up to the last height. -/
def TapsBalance : List Event → Prop :=
  AtEveryTap fun before => shownSinceTap before = lastHeight before

/-! ## One event -/

/-- The remembered height and the place of the view. -/
def keyboard (c : CreateChatController) : Rat × Rat := (c.keyboardFrameHeight, c.originY)

/-- How an event changes the remembered height and the place of the view. -/
def seeKeyboard (k : Rat × Rat) : Event → Rat × Rat
  | .showKeyboard height => (height, k.2 - height)
  | .didTapRegisterButton => (k.1, k.2 + k.1)
  | _ => k

theorem setBottomDialogues_keyboard (c : CreateChatController) (dialogues : List Dialogue) :
    (c.setBottomDialogues dialogues).keyboard = c.keyboard := by
  unfold setBottomDialogues
  split_ifs <;> rfl

theorem defaultUI_keyboard (c : CreateChatController) (onScreen : ℕ → Bool) :
    (c.defaultUI onScreen).keyboard = c.keyboard := by
  unfold defaultUI
  dsimp only
  split_ifs <;> exact setBottomDialogues_keyboard _ []

/-- Only a keyboard and a register tap move the view. -/
theorem step_keyboard {c c' : CreateChatController} {e : Event} (h : c.step sameName e = some c') :
    c'.keyboard = seeKeyboard c.keyboard e := by
  cases e with
  | didSelectRow row =>
    obtain ⟨dialogue, -, -, rfl⟩ := step_didSelectRow h
    exact setBottomDialogues_keyboard c _
  | defaultUI onScreen =>
    obtain rfl := Option.some.inj h
    exact defaultUI_keyboard c onScreen
  | didTapRegisterButton =>
    obtain ⟨-, rfl⟩ := step_didTapRegisterButton h
    rfl
  | _ =>
    obtain rfl := Option.some.inj h
    rfl

/-! ## Runs -/

theorem run_keyboardFrameHeight {es : List Event} {c : CreateChatController}
    (hrun : run (step sameName) presented es = some c) : c.keyboardFrameHeight = lastHeight es := by
  induction es using List.reverseRecOn generalizing c with
  | nil =>
    obtain rfl := Option.some.inj hrun
    rfl
  | append_singleton es e ih =>
    obtain ⟨t, ht, hstep⟩ := run_concat_eq_some.1 hrun
    have hheight := congrArg Prod.fst (step_keyboard hstep)
    have hlast := ih ht
    rw [lastHeight, List.foldl_concat, ← lastHeight, ← hlast]
    cases e <;> exact hheight

/-- The view stays below its place by the heights shown since the last tap, as long as the taps
balance. -/
theorem run_originY {es : List Event} {c : CreateChatController}
    (hrun : run (step sameName) presented es = some c) (hes : TapsBalance es) :
    c.originY = - shownSinceTap es := by
  induction es using List.reverseRecOn generalizing c with
  | nil =>
    obtain rfl := Option.some.inj hrun
    rfl
  | append_singleton es e ih =>
    obtain ⟨t, ht, hstep⟩ := run_concat_eq_some.1 hrun
    obtain ⟨hbefore, htap⟩ := eachAfter_concat.1 hes
    have hplace : c.originY = (seeKeyboard t.keyboard e).2 :=
      congrArg Prod.snd (step_keyboard hstep)
    have hheight := run_keyboardFrameHeight ht
    have hlast := ih ht hbefore
    rw [shownSinceTap, List.foldl_concat, ← shownSinceTap, hplace]
    cases e with
    | showKeyboard height =>
      simp only [seeKeyboard, seeShown, keyboard]
      linarith
    | didTapRegisterButton =>
      have hbalance := htap rfl
      simp only [seeKeyboard, seeShown, keyboard]
      linarith
    | _ => exact hlast

/-- A register tap after taps that balance puts the view back by the last height. -/
theorem originY_of_tap {es : List Event} {c : CreateChatController} (hes : TapsBalance es)
    (hrun : run (step sameName) presented (es ++ [.didTapRegisterButton]) = some c) :
    c.originY = lastHeight es - shownSinceTap es := by
  obtain ⟨t, ht, hstep⟩ := run_concat_eq_some.1 hrun
  obtain ⟨-, rfl⟩ := step_didTapRegisterButton hstep
  have hplace := run_originY ht hes
  have hheight := run_keyboardFrameHeight ht
  simp only [endKeyboard]
  linarith

/-- In every run, each register tap leaves the view in its place exactly when, at each of them, the
heights shown since the tap before add up to the last height shown. -/
theorem returnsToItsPlace_iff {es : List Event} {c : CreateChatController}
    (hrun : run (step sameName) presented es = some c) :
    ReturnsToItsPlace sameName es ↔ TapsBalance es := by
  induction es using List.reverseRecOn generalizing c with
  | nil => exact iff_of_true (eachAfter_nil _) (eachAfter_nil _)
  | append_singleton es e ih =>
    obtain ⟨t, ht, -⟩ := run_concat_eq_some.1 hrun
    rw [ReturnsToItsPlace, TapsBalance, AtEveryTap, AtEveryTap, eachAfter_concat, eachAfter_concat]
    refine (and_congr_left' (ih ht)).trans (and_congr_right fun hes => forall_congr' ?_)
    rintro rfl
    constructor
    · intro hback
      have hzero := hback c hrun
      have hplace := originY_of_tap hes hrun
      linarith
    · intro hbalance c' hc'
      have hplace := originY_of_tap hes hc'
      linarith

/-- Pick two lines of a character, so that the register button is visible. -/
def pickTwoLines : List Event :=
  [.fetchDialogues [⟨"Hello", "audio", 0, "hello", "Anna", "image", "anna"⟩],
   .selectCharacter ⟨"Anna", "image", 0, "anna"⟩, .didSelectRow 0, .didSelectRow 0]

theorem returnsToItsPlace_iff_retry :
    let es := pickTwoLines ++ [.showKeyboard 300, .didTapRegisterButton, .showKeyboard 300,
      .didTapRegisterButton]
    ReturnsToItsPlace (· == ·) es ↔ TapsBalance es :=
  returnsToItsPlace_iff (c := _) rfl

/-- The keyboard grows from 300 to 350 before the tap: the view stays 300 above its place. -/
theorem not_returnsToItsPlace_twoHeights :
    ∃ c, run (step (· == ·)) presented (pickTwoLines ++ [.showKeyboard 300, .showKeyboard 350,
        .didTapRegisterButton]) = some c ∧ c.originY = -300 ∧
      ¬ ReturnsToItsPlace (· == ·) (pickTwoLines ++ [.showKeyboard 300, .showKeyboard 350,
        .didTapRegisterButton]) := by
  have hplace : (0 : Rat) - 300 - 350 + 350 = -300 := by norm_num
  refine ⟨_, rfl, hplace, fun h => ?_⟩
  have hback := h (pickTwoLines ++ [.showKeyboard 300, .showKeyboard 350]) _ [] rfl rfl _ rfl
  have hzero : (0 : Rat) - 300 - 350 + 350 = 0 := hback
  norm_num at hzero

end DialogueApp.CreateChatController
