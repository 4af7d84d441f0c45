import DialogueApp.Controllers.RegisterPager
import DialogueApp.Proof.FormOnClient

/-!
# The pages of the registration form and its bottom bar

A recycled cell carries the subviews of all three pages, and three functions dress the buttons.  All
the same every page shows its own subviews and no others, and the buttons go by the page, the colour
of one title apart.
-/

namespace DialogueApp

open Runs

/-! ## What a page shows -/

/-- The cell is configured for the page: of the subviews of the three pages those of this page are
shown. -/
structure RegisterCell.Shows (cell : RegisterCell) (page : ℕ) : Prop where
  viewModel : cell.viewModel = some ⟨page⟩
  nameTextField : cell.nameTextFieldHidden = decide (page ≠ 0)
  charactorImage : cell.charactorImageHidden = decide (page ≠ 1)
  nameLabel : cell.nameLabelHidden = decide (page ≠ 1)
  recordingView : cell.recordingViewHidden = decide (page ≠ 2)
  instruction : cell.instructionText = some (RegisterViewModel.mk page).instructionText

/-- Assigning the view model of a page shows the page, whatever the cell has shown before. -/
theorem RegisterCell.shows_setViewModel (cell : RegisterCell) {page : ℕ} (h : page < 3) :
    (cell.setViewModel ⟨page⟩).Shows page := by
  have hpage : page = 0 ∨ page = 1 ∨ page = 2 := by omega
  rcases hpage with rfl | rfl | rfl
  · exact ⟨rfl, rfl, rfl, rfl, rfl, rfl⟩
  · exact ⟨rfl, rfl, rfl, rfl, rfl, rfl⟩
  · exact ⟨rfl, rfl, rfl, rfl, rfl, rfl⟩

namespace RegisterForm

/-- Each page on screen has a cell of its own that shows it. -/
structure PagesShown (s : RegisterForm) : Prop where
  shown : ∀ page n, s.pageCells page = some n →
    page < 3 ∧ ∃ cell, s.cells[n]? = some cell ∧ cell.Shows page
  own : ∀ page page' n, s.pageCells page = some n → s.pageCells page' = some n → page = page'

theorem pagesShown_new (device : Device) : (new device).PagesShown := ⟨nofun, nofun⟩

/-- A change of the contents of a cell that leaves its page and what it hides. -/
def KeepsPage (f : RegisterCell → RegisterCell) : Prop :=
  ∀ cell page, cell.Shows page → (f cell).Shows page

theorem PagesShown.modify {s s' : RegisterForm} (h : s.PagesShown) {n : ℕ}
    {f : RegisterCell → RegisterCell} (hf : KeepsPage f) (hpages : s'.pageCells = s.pageCells)
    (hcells : s'.cells = s.cells.modify n f) : s'.PagesShown := by
  refine ⟨fun page k hk => ?_, fun page page' k hk hk' => ?_⟩
  · rw [hpages] at hk
    obtain ⟨hpage, cell, hcell, hshows⟩ := h.shown page k hk
    refine ⟨hpage, ?_⟩
    rw [hcells, List.getElem?_modify, hcell]
    by_cases hn : n = k
    · exact ⟨f cell, by simp [hn], hf cell page hshows⟩
    · exact ⟨cell, by simp [hn], hshows⟩
  · rw [hpages] at hk hk'
    exact h.own page page' k hk hk'

theorem PagesShown.same {s s' : RegisterForm} (h : s.PagesShown)
    (hpages : s'.pageCells = s.pageCells) (hcells : s'.cells = s.cells) : s'.PagesShown := by
  refine ⟨fun page k hk => ?_, fun page page' k hk hk' => ?_⟩
  · rw [hpages] at hk
    rw [hcells]
    exact h.shown page k hk
  · rw [hpages] at hk hk'
    exact h.own page page' k hk hk'

theorem PagesShown.modifyPage {s : RegisterForm} (h : s.PagesShown) (page : ℕ)
    {f : RegisterCell → RegisterCell} (hf : KeepsPage f) : (s.modifyPage page f).PagesShown := by
  unfold RegisterForm.modifyPage
  cases s.pageCells page with
  | none => exact h
  | some n => exact h.modify hf rfl rfl

theorem PagesShown.setupNaxtPageUI {s : RegisterForm} (h : s.PagesShown) (page : ℕ) :
    (s.setupNaxtPageUI page).PagesShown := by
  unfold RegisterForm.setupNaxtPageUI
  split_ifs
  · exact h.modifyPage _ fun _ _ hs => ⟨hs.1, hs.2, hs.3, hs.4, hs.5, hs.6⟩
  · exact h.modifyPage _ fun _ _ hs => ⟨hs.1, hs.2, hs.3, hs.4, hs.5, hs.6⟩
  · exact h

/-- A cell that shows no page is given to one. -/
theorem PagesShown.give {s s' : RegisterForm} (h : s.PagesShown) {page n : ℕ} (hpage : page < 3)
    (hfree : ∀ p, s.pageCells p ≠ some n) {cell : RegisterCell}
    (hpages : s'.pageCells = Function.update s.pageCells page (some n))
    (hcell : s'.cells[n]? = some cell) (hshows : cell.Shows page)
    (hothers : ∀ k cell, k ≠ n → s.cells[k]? = some cell → s'.cells[k]? = some cell) :
    s'.PagesShown := by
  refine ⟨fun p k hk => ?_, fun p p' k hk hk' => ?_⟩
  · rw [hpages, Function.update_apply] at hk
    split_ifs at hk with hp
    · obtain rfl := Option.some.inj hk
      exact ⟨hp ▸ hpage, cell, hcell, hp ▸ hshows⟩
    · obtain ⟨hlt, other, hother, hshown⟩ := h.shown p k hk
      have hk : k ≠ n := fun heq => hfree p (heq ▸ hk)
      exact ⟨hlt, other, hothers k other hk hother, hshown⟩
  · rw [hpages, Function.update_apply] at hk hk'
    split_ifs at hk hk' with hp hp' hp'
    · rw [hp, hp']
    · exact absurd (hk ▸ hk') (hfree p')
    · exact absurd (hk' ▸ hk) (hfree p)
    · exact h.own p p' k hk hk'

theorem PagesShown.cellForItemAt {s s' : RegisterForm} (h : s.PagesShown) {page : ℕ}
    {reused : Option ℕ} (hpage : page < 3) (hstep : s.cellForItemAt page reused = some s') :
    s'.PagesShown := by
  obtain rfl | ⟨m, hlt, hfree, rfl⟩ := RegisterForm.cellForItemAt_cases hstep
  · refine h.give hpage (fun p hp => ?_) rfl ?_ (RegisterCell.shows_setViewModel .new hpage) ?_
    · obtain ⟨-, cell, hcell, -⟩ := h.shown p _ hp
      exact absurd (List.getElem?_eq_some_iff.1 hcell).1 (Nat.lt_irrefl _)
    · simp
    · intro k cell hk hcell
      have hlt := (List.getElem?_eq_some_iff.1 hcell).1
      simp [Ne.symm hk, List.getElem?_append_left hlt, hcell]
  · have hcell := List.getElem?_eq_getElem hlt
    refine h.give hpage (fun p hp => ?_) rfl ?_
      (RegisterCell.shows_setViewModel (s.cells.get ⟨m, hlt⟩) hpage) ?_
    · have hshown : s.isOnScreen m = true :=
        List.any_eq_true.2 ⟨p, List.mem_range.2 (h.shown p m hp).1, by rw [hp, beq_self_eq_true]⟩
      rw [hfree] at hshown
      cases hshown
    · simp [hcell]
    · intro k cell hk hcell
      simp [Ne.symm hk, hcell]

theorem step_pagesShown {number : ℕ} {s s' : RegisterForm} {e : Event} (hs : s.PagesShown)
    (h : s.step number e = some s') : s'.PagesShown := by
  cases e with
  | cellForItemAt page reused =>
    simp only [step] at h
    split_ifs at h with hpage
    exact hs.cellForItemAt hpage.1 h
  | didEndDisplaying page =>
    obtain rfl := Option.some.inj h
    refine ⟨fun p k hk => ?_, fun p p' k hk hk' => ?_⟩
    · simp only [Function.update_apply] at hk
      split_ifs at hk
      exact hs.shown p k hk
    · simp only [Function.update_apply] at hk hk'
      split_ifs at hk hk'
      exact hs.own p p' k hk hk'
  | didTapPrevButton =>
    obtain rfl := Option.some.inj h
    exact hs.same rfl rfl
  | didTapNextButton =>
    obtain rfl := Option.some.inj h
    unfold didTapNextButton
    split_ifs
    · exact hs.same rfl rfl
    · exact hs.same rfl rfl
  | scrollViewWillEndDragging page =>
    obtain rfl := Option.some.inj h
    have hmoved : PagesShown { s with currentPage := min page 2 } := hs.same rfl rfl
    exact hmoved.setupNaxtPageUI page
  | timer =>
    cases htimers : s.timers with
    | nil =>
      simp only [step, htimers] at h
      cases h
    | cons pageNumber timers =>
      simp only [step, htimers] at h
      obtain rfl := Option.some.inj h
      have hfired : PagesShown { s with timers } := hs.same rfl rfl
      exact hfired.setupNaxtPageUI pageNumber
  | didFinishPicking image =>
    obtain rfl := Option.some.inj h
    have hpicked : PagesShown { s with screen := { s.screen with selectedImage := image } } :=
      hs.same rfl rfl
    exact hpicked.modifyPage 1 fun _ _ hs => ⟨hs.1, hs.2, hs.3, hs.4, hs.5, hs.6⟩
  | didChangeText text =>
    obtain ⟨n, -, rfl⟩ := Option.map_eq_some_iff.1 h
    have hedited : (s.modifyPage 0 fun cell => { cell with nameText := text }).PagesShown :=
      hs.modifyPage 0 fun _ _ hs => ⟨hs.1, hs.2, hs.3, hs.4, hs.5, hs.6⟩
    exact hedited.same rfl rfl
  | textViewDidChange text | didTapRecordButton starts =>
    obtain ⟨n, -, rfl⟩ := Option.map_eq_some_iff.1 h
    exact hs.same rfl rfl
  | recognize cell dialogue =>
    simp only [step] at h
    split_ifs at h
    obtain rfl := Option.some.inj h
    exact hs.same rfl rfl

end RegisterForm

/-! ## The bottom bar -/

namespace RegisterPager

open RegisterForm

/-- The buttons go by the page, which is the one in view. -/
structure BarGoesByPage (s : RegisterPager) : Prop where
  page : s.currentPage = min s.scrolledTo 2
  previousTitle : s.previousButton.title = "prev"
  previousTitleColor : s.previousButton.titleColor = if s.currentPage = 0 then .clear else .white
  previousBackground : s.previousButton.backgroundColor = .clear
  nextTitle : s.nextButton.title = if s.currentPage = 2 then "登録" else "next"
  nextBackground : s.nextButton.backgroundColor = .clear ↔ s.currentPage ≠ 2

theorem barGoesByPage_new (device : Device) : (new device).BarGoesByPage :=
  ⟨rfl, rfl, rfl, rfl, rfl, iff_of_true rfl (Nat.zero_ne_add_one 1)⟩

/-- An event that turns no page. -/
def turnsNoPage : RegisterForm.Event → Bool
  | .didTapPrevButton | .didTapNextButton | .scrollViewWillEndDragging _ => false
  | _ => true

theorem currentPage_of_turnsNoPage {number : ℕ} {s s' : RegisterForm} {e : RegisterForm.Event}
    (he : turnsNoPage e = true) (h : s.step number e = some s') :
    s'.currentPage = s.currentPage := by
  cases e with
  | didTapPrevButton | didTapNextButton | scrollViewWillEndDragging => cases he
  | cellForItemAt page reused =>
    simp only [RegisterForm.step] at h
    split_ifs at h
    obtain rfl | ⟨n, -, -, rfl⟩ := cellForItemAt_cases h
    · rfl
    · rfl
  | didEndDisplaying page =>
    obtain rfl := Option.some.inj h
    rfl
  | timer =>
    simp only [RegisterForm.step] at h
    split at h
    · obtain rfl := Option.some.inj h
      exact (setupNaxtPageUI_keeps _ _).2
    · cases h
  | didFinishPicking image =>
    obtain rfl := Option.some.inj h
    exact (modifyPage_keeps _ _ _).2
  | didChangeText text =>
    obtain ⟨n, -, rfl⟩ := Option.map_eq_some_iff.1 h
    exact (modifyPage_keeps _ _ _).2
  | textViewDidChange text | didTapRecordButton starts =>
    obtain ⟨n, -, rfl⟩ := Option.map_eq_some_iff.1 h
    rfl
  | recognize cell dialogue =>
    simp only [RegisterForm.step] at h
    split_ifs at h
    obtain rfl := Option.some.inj h
    rfl

/-- It leaves the page, the buttons and the uploads alone. -/
theorem step_of_turnsNoPage {number : ℕ} {s s' : RegisterPager} {e : RegisterForm.Event}
    (he : turnsNoPage e = true) (h : s.step number e = some s') :
    ∃ form, s.toRegisterForm.step number e = some form ∧
      form.currentPage = s.currentPage ∧ s' = { s with toRegisterForm := form } := by
  have hstep : ∃ form, s.toRegisterForm.step number e = some form ∧
      { s with toRegisterForm := form } = s' := by
    cases e with
    | didTapPrevButton | didTapNextButton | scrollViewWillEndDragging => cases he
    | _ => exact Option.map_eq_some_iff.1 h
  obtain ⟨form, hform, rfl⟩ := hstep
  exact ⟨form, hform, currentPage_of_turnsNoPage he hform, rfl⟩

theorem currentPage_scrollViewWillEndDragging (s : RegisterForm) (page : ℕ) :
    (s.scrollViewWillEndDragging page).currentPage = min page 2 :=
  (setupNaxtPageUI_keeps _ page).2

theorem step_barGoesByPage {number : ℕ} {s s' : RegisterPager} {e : RegisterForm.Event}
    (hs : s.BarGoesByPage) (h : s.step number e = some s') : s'.BarGoesByPage := by
  have hle : s.currentPage ≤ 2 := by
    rw [hs.page]
    exact Nat.min_le_right _ _
  cases hturns : turnsNoPage e with
  | true =>
    obtain ⟨form, -, hpage, rfl⟩ := step_of_turnsNoPage hturns h
    exact ⟨hpage.trans hs.page, hs.previousTitle, by simpa only [hpage] using hs.previousTitleColor,
      hs.previousBackground, by simpa only [hpage] using hs.nextTitle,
      by simpa only [hpage] using hs.nextBackground⟩
  | false =>
    cases e with
    | didTapPrevButton =>
      obtain rfl := Option.some.inj h
      have hpage : s.currentPage - 1 ≠ 2 := by omega
      refine ⟨?_, hs.previousTitle, rfl, hs.previousBackground, (if_neg hpage).symm,
        iff_of_true rfl hpage⟩
      show s.currentPage - 1 = min (s.currentPage - 1) 2
      omega
    | didTapNextButton =>
      obtain rfl := Option.some.inj h
      by_cases hlast : s.currentPage = 2
      · have hform : s.toRegisterForm.didTapNextButton.currentPage = 2 := by
          rw [RegisterForm.didTapNextButton, if_pos hlast]
          exact hlast
        have htitle := hs.nextTitle
        have hbackground := hs.nextBackground
        rw [hlast] at htitle hbackground
        rw [didTapNextButton, if_pos hlast]
        refine ⟨?_, hs.previousTitle, ?_, hs.previousBackground, ?_, ?_⟩
        · exact hform.trans (hlast.symm.trans hs.page)
        · simp only [hform]
          rfl
        · simpa only [hform] using htitle
        · simpa only [hform] using hbackground
      · have hform : s.toRegisterForm.didTapNextButton.currentPage = min (s.currentPage + 1) 2 := by
          rw [RegisterForm.didTapNextButton, if_neg hlast]
        have hzero : min (s.currentPage + 1) 2 ≠ 0 := by omega
        rw [didTapNextButton, if_neg hlast]
        refine ⟨?_, hs.previousTitle, ?_, hs.previousBackground, ?_, ?_⟩
        · simp only [hform]
          omega
        · simp only [hform, if_neg hzero]
        · simp only [hform]
        · simp only [hform]
          by_cases htwo : min (s.currentPage + 1) 2 = 2
          · simp [htwo]
          · simp [htwo]
    | scrollViewWillEndDragging page =>
      obtain rfl := Option.some.inj h
      have hform := currentPage_scrollViewWillEndDragging s.toRegisterForm page
      refine ⟨hform, hs.previousTitle, ?_, hs.previousBackground, ?_, ?_⟩
      · simp only [scrollViewWillEndDragging, hform]
      · simp only [scrollViewWillEndDragging, hform]
      · simp only [scrollViewWillEndDragging, hform]
        by_cases htwo : min page 2 = 2
        · simp [htwo]
        · simp [htwo]
    | _ => cases hturns

/-! ## The runs -/

/-- The pager takes the form where the event takes it. -/
theorem step_form {number : ℕ} {s s' : RegisterPager} {e : RegisterForm.Event}
    (h : s.step number e = some s') :
    s.toRegisterForm.step number e = some s'.toRegisterForm := by
  cases hturns : turnsNoPage e with
  | true =>
    obtain ⟨form, hform, -, rfl⟩ := step_of_turnsNoPage hturns h
    exact hform
  | false =>
    cases e with
    | didTapPrevButton | scrollViewWillEndDragging page =>
      obtain rfl := Option.some.inj h
      rfl
    | didTapNextButton =>
      obtain rfl := Option.some.inj h
      rw [didTapNextButton]
      dsimp only
      split_ifs <;> rfl
    | _ => cases hturns

/-- What a tap hands on while the next button reads 登録. -/
def registered (s : RegisterPager) : RegisterForm.Event → List CharacterItem
  | .didTapNextButton => if s.nextButton.title = "登録" then [s.screen.characterItem] else []
  | _ => []

theorem step_uploads {number : ℕ} {s s' : RegisterPager} {e : RegisterForm.Event}
    (hbar : s.BarGoesByPage) (h : s.step number e = some s') :
    s'.uploads = s.uploads ++ s.registered e := by
  rw [RegisterForm.step_uploads (step_form h)]
  cases e with
  | didTapNextButton =>
    rw [registers, registered, hbar.nextTitle]
    by_cases hlast : s.currentPage = 2
    · simp [hlast]
    · simp [hlast]
  | _ => rfl

/-- In every run each page on screen has a cell of its own, whose subviews shown are those of the
page. -/
theorem pagesShowTheirOwn (number : ℕ) (device : Device) (es : List RegisterForm.Event)
    (s : RegisterPager) (hrun : run (step number) (new device) es = some s) :
    s.toRegisterForm.PagesShown :=
  run_invariant (I := fun x : RegisterPager => x.toRegisterForm.PagesShown)
    (fun _ _ _ hx hstep => step_pagesShown hx (step_form hstep)) (pagesShown_new device) hrun

theorem pagesShowTheirOwn_sample :
    ∃ s, run (step 0) (new (Device.new "documents")) World.fillForm = some s ∧
      s.pageCells 1 = some 1 ∧ s.pageCells 2 = some 0 ∧ s.toRegisterForm.PagesShown := by
  have hrun : ∃ s, run (step 0) (new (Device.new "documents")) World.fillForm = some s ∧
      s.pageCells 1 = some 1 ∧ s.pageCells 2 = some 0 := ⟨_, rfl, rfl, rfl⟩
  obtain ⟨s, hrun, hone, htwo⟩ := hrun
  exact ⟨s, hrun, hone, htwo, pagesShowTheirOwn 0 _ _ s hrun⟩

/-! ## The colour of the next button's title -/

/-- The colour that the title of the next button has on its page. -/
def NextTitleColored (s : RegisterPager) : Prop :=
  s.nextButton.titleColor = if s.currentPage = 2 then .chatViewMainColor .purple else .white

/-- The event is no tap on the previous button on the last page, which leaves the title's colour. -/
def KeepsTitleColor (s : RegisterPager) : RegisterForm.Event → Prop
  | .didTapPrevButton => s.currentPage ≠ 2
  | _ => True

theorem step_nextTitleColored {number : ℕ} (s : RegisterPager) (e : RegisterForm.Event)
    (s' : RegisterPager) (hbar : s.BarGoesByPage) (hs : s.NextTitleColored)
    (h : s.step number e = some s') : s'.NextTitleColored ↔ s.KeepsTitleColor e := by
  have hle : s.currentPage ≤ 2 := by
    rw [hbar.page]
    exact Nat.min_le_right _ _
  unfold NextTitleColored at hs ⊢
  cases hturns : turnsNoPage e with
  | true =>
    obtain ⟨form, -, hpage, rfl⟩ := step_of_turnsNoPage hturns h
    have hkeeps : s.KeepsTitleColor e := by
      cases e with
      | didTapPrevButton => cases hturns
      | _ => trivial
    refine iff_of_true ?_ hkeeps
    simpa only [hpage] using hs
  | false =>
    cases e with
    | didTapPrevButton =>
      obtain rfl := Option.some.inj h
      have hpage : s.currentPage - 1 ≠ 2 := by omega
      show s.nextButton.titleColor = (if s.currentPage - 1 = 2 then _ else _) ↔ _
      rw [hs, if_neg hpage, KeepsTitleColor]
      by_cases hlast : s.currentPage = 2
      · simp [hlast]
      · simp [hlast]
    | didTapNextButton =>
      obtain rfl := Option.some.inj h
      refine iff_of_true ?_ trivial
      by_cases hlast : s.currentPage = 2
      · have hform : s.toRegisterForm.didTapNextButton.currentPage = 2 := by
          rw [RegisterForm.didTapNextButton, if_pos hlast]
          exact hlast
        rw [hlast] at hs
        rw [didTapNextButton, if_pos hlast]
        simpa only [hform] using hs
      · have hform : s.toRegisterForm.didTapNextButton.currentPage = min (s.currentPage + 1) 2 := by
          rw [RegisterForm.didTapNextButton, if_neg hlast]
        rw [didTapNextButton, if_neg hlast]
        simp only [hform]
    | scrollViewWillEndDragging page =>
      obtain rfl := Option.some.inj h
      refine iff_of_true ?_ trivial
      simp only [scrollViewWillEndDragging, currentPage_scrollViewWillEndDragging]
    | _ => cases hturns

/-- The title of the next button has the colour of its page in every state of a run, if and only if the
previous button is never tapped on the last page. -/
theorem nextTitleColored_iff (number : ℕ) (device : Device) (es : List RegisterForm.Event) :
    EveryState (step number) NextTitleColored (new device) es ↔
      AllSteps (step number) KeepsTitleColor (new device) es :=
  everyState_iff_allSteps (I := BarGoesByPage) (fun _ _ _ hs h => step_barGoesByPage hs h)
    step_nextTitleColored (barGoesByPage_new device) rfl

end RegisterPager

end DialogueApp
