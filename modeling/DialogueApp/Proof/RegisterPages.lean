import DialogueApp.Controllers.RegisterForm
import DialogueApp.Lib.Runs

/-!
# What the registration form shows and what it uploads

The name and the text are kept twice, by the controller and by the subviews of the recycled cells.
Typing and recording keep the two in step.  A page that comes on screen again is not filled in: it
shows what its cell showed last.  And a recognition result may come from a cell that has left
page 2, also when page 2 is not on screen any more: an upload then takes a text that has not been seen.
-/

namespace DialogueApp

/-- What `RegisterViewController.uploadDialogue()` hands on. -/
def RegisterScreen.characterItem (s : RegisterScreen) : CharacterItem where
  image := s.selectedImage
  audio := s.audioUrl
  text := s.audioText
  name := s.nameText

namespace RegisterForm

open Runs

/-- The name field of a cell. -/
def nameOf (s : RegisterForm) (n : ℕ) : Option String := s.cells[n]?.map RegisterCell.nameText

/-- The text of a cell's recording view. -/
def textOf (s : RegisterForm) (n : ℕ) : String := (s.screen.recordingViews n).text

/-- The name field of page 0 shows the name, the recording view of page 2 the text, that an upload
takes. -/
structure ShowsWhatItUploads (s : RegisterForm) : Prop where
  name : ∀ n, s.pageCells 0 = some n → s.nameOf n = some s.screen.nameText
  text : ∀ n, s.pageCells 2 = some n → s.textOf n = s.screen.audioText

/-- The name field of the cell that is dequeued. -/
def dequeuedName (s : RegisterForm) : Option ℕ → Option String
  | none => some ""
  | some n => s.nameOf n

/-- The text of its recording view. -/
def dequeuedText (s : RegisterForm) : Option ℕ → String
  | none => ""
  | some n => s.textOf n

/-- The condition under which an event keeps form and fields in step: page 0 is given a cell whose
name field holds the name, page 2 one that holds the text; and a recognition result that arrives
while page 2 is on screen comes from its cell, or says what the page says. -/
def KeepsForm (s : RegisterForm) : Event → Prop
  | .cellForItemAt page reused =>
    (page = 0 → s.dequeuedName reused = some s.screen.nameText) ∧
      (page = 2 → s.dequeuedText reused = s.screen.audioText)
  | .recognize cell dialogue =>
    ∀ n, s.pageCells 2 = some n → n = cell ∨ s.textOf n = dialogue
  | _ => True

/-- The pages are shown by cells that have been made. -/
def PagesHaveCells (s : RegisterForm) : Prop :=
  ∀ page n, s.pageCells page = some n → n < s.cells.length

/-! ## Events that leave names and texts alone -/

/-- The pages, the names and the texts are as they were. -/
structure SameForm (s s' : RegisterForm) : Prop where
  pageCells : s'.pageCells = s.pageCells
  length : s'.cells.length = s.cells.length
  names : ∀ n, s'.nameOf n = s.nameOf n
  texts : ∀ n, s'.textOf n = s.textOf n
  nameText : s'.screen.nameText = s.screen.nameText
  audioText : s'.screen.audioText = s.screen.audioText

theorem SameForm.showsWhatItUploads {s s' : RegisterForm} (h : SameForm s s')
    (hs : s.ShowsWhatItUploads) : s'.ShowsWhatItUploads := by
  refine ⟨fun n hn => ?_, fun n hn => ?_⟩
  · rw [h.pageCells] at hn
    rw [h.names, h.nameText]
    exact hs.name n hn
  · rw [h.pageCells] at hn
    rw [h.texts, h.audioText]
    exact hs.text n hn

theorem SameForm.pagesHaveCells {s s' : RegisterForm} (h : SameForm s s')
    (hs : s.PagesHaveCells) : s'.PagesHaveCells := by
  intro page n hn
  rw [h.pageCells] at hn
  rw [h.length]
  exact hs page n hn

theorem SameForm.refl (s : RegisterForm) : SameForm s s :=
  ⟨rfl, rfl, fun _ => rfl, fun _ => rfl, rfl, rfl⟩

theorem SameForm.trans {s t u : RegisterForm} (h : SameForm s t) (h' : SameForm t u) :
    SameForm s u where
  pageCells := h'.pageCells.trans h.pageCells
  length := h'.length.trans h.length
  names n := (h'.names n).trans (h.names n)
  texts n := (h'.texts n).trans (h.texts n)
  nameText := h'.nameText.trans h.nameText
  audioText := h'.audioText.trans h.audioText

theorem sameForm_counters (s : RegisterForm) (currentPage : ℕ) (timers : List ℕ)
    (uploads : List CharacterItem) : SameForm s { s with currentPage, timers, uploads } :=
  ⟨rfl, rfl, fun _ => rfl, fun _ => rfl, rfl, rfl⟩

theorem sameForm_modifyPage (s : RegisterForm) (page : ℕ) {f : RegisterCell → RegisterCell}
    (hf : ∀ cell, (f cell).nameText = cell.nameText) : SameForm s (s.modifyPage page f) := by
  unfold modifyPage
  cases s.pageCells page with
  | none => exact SameForm.refl s
  | some k =>
    refine ⟨rfl, List.length_modify .., fun n => ?_, fun _ => rfl, rfl, rfl⟩
    simp only [nameOf, List.getElem?_modify]
    cases s.cells[n]? with
    | none => rfl
    | some cell =>
      by_cases h : k = n <;> simp [h, hf]

theorem sameForm_setupNaxtPageUI (s : RegisterForm) (pageNumber : ℕ) :
    SameForm s (s.setupNaxtPageUI pageNumber) := by
  unfold setupNaxtPageUI
  split_ifs
  · exact sameForm_modifyPage s _ fun _ => rfl
  · exact sameForm_modifyPage s _ fun _ => rfl
  · exact SameForm.refl s

theorem sameForm_didFinishPicking (s : RegisterForm) (image : UIImage) :
    SameForm s (s.didFinishPicking image) := by
  have hpicked : SameForm s { s with screen := { s.screen with selectedImage := image } } :=
    ⟨rfl, rfl, fun _ => rfl, fun _ => rfl, rfl, rfl⟩
  exact hpicked.trans (sameForm_modifyPage _ 1
    (f := fun cell => { cell with charactorImage := some image }) fun _ => rfl)

theorem sameForm_didTapNextButton (s : RegisterForm) : SameForm s s.didTapNextButton := by
  unfold didTapNextButton
  split_ifs <;> exact sameForm_counters s _ _ _

/-! ## A cell for a page -/

/-- The page is shown by a cell that was dequeued with its contents as they were. -/
structure GivesCell (s s' : RegisterForm) (page : ℕ) (reused : Option ℕ) (n : ℕ) : Prop where
  pageCells : s'.pageCells = Function.update s.pageCells page (some n)
  made : n < s'.cells.length
  grows : s.cells.length ≤ s'.cells.length
  names : ∀ k < s.cells.length, s'.nameOf k = s.nameOf k
  texts : ∀ k < s.cells.length, s'.textOf k = s.textOf k
  name : s'.nameOf n = s.dequeuedName reused
  text : s'.textOf n = s.dequeuedText reused
  nameText : s'.screen.nameText = s.screen.nameText
  audioText : s'.screen.audioText = s.screen.audioText

/-- The view model leaves the name fields alone. -/
theorem nameOf_setViewModel (s : RegisterForm) (n : ℕ) (viewModel : RegisterViewModel) (k : ℕ) :
    ((s.cells.modify n fun cell => cell.setViewModel viewModel)[k]?).map RegisterCell.nameText =
      s.nameOf k := by
  rw [List.getElem?_modify, nameOf]
  cases s.cells[k]? with
  | none => rfl
  | some cell => by_cases h : n = k <;> simp [h, RegisterCell.setViewModel]

theorem cellForItemAt_givesCell {s s' : RegisterForm} {page : ℕ} {reused : Option ℕ}
    (h : s.cellForItemAt page reused = some s') : ∃ n, GivesCell s s' page reused n := by
  cases reused with
  | none =>
    obtain rfl := Option.some.inj h
    refine ⟨s.cells.length, rfl, ?_, ?_, fun k hk => ?_, fun k hk => ?_, ?_, ?_, rfl, rfl⟩
    · simp
    · simp
    · refine (nameOf_setViewModel { s with cells := s.cells ++ [.new] } s.cells.length ⟨page⟩
        k).trans ?_
      rw [nameOf, nameOf, List.getElem?_append_left hk]
    · simp [textOf, Nat.ne_of_lt hk]
    · refine (nameOf_setViewModel { s with cells := s.cells ++ [.new] } s.cells.length ⟨page⟩
        s.cells.length).trans ?_
      simp [nameOf, dequeuedName, RegisterCell.new]
    · simp [textOf, dequeuedText, RecordingView.new]
  | some n =>
    simp only [cellForItemAt, dequeueReusableCell] at h
    split_ifs at h with hfree
    · obtain rfl := Option.some.inj h
      refine ⟨n, rfl, ?_, ?_, fun k _ => ?_, fun k _ => rfl, ?_, rfl, rfl, rfl⟩
      · simpa using hfree.1
      · simp
      · exact nameOf_setViewModel s n ⟨page⟩ k
      · exact nameOf_setViewModel s n ⟨page⟩ n
    · cases h

/-! ## Typing and recording -/

/-- The record button reports the text of its view, or nothing, and changes no text. -/
theorem handle_didTapRecordButton (s : RegisterForm) (number view : ℕ) (starts : Bool) :
    let s' := s.handle number (.didTapRecordButton view starts)
    (∀ k, s'.textOf k = s.textOf k) ∧ s'.screen.nameText = s.screen.nameText ∧
      (s'.screen.audioText = s.screen.audioText ∨ s'.screen.audioText = s.textOf view) := by
  obtain ⟨-, htext, hreport⟩ :=
    (s.screen.recordingViews view).didTapRecordButton_effect s.device number starts
  simp only [handle, RegisterScreen.handle, textOf]
  generalize (s.screen.recordingViews view).didTapRecordButton s.device number starts = result
    at htext hreport ⊢
  obtain ⟨v, device, report⟩ := result
  have hkeep : ∀ k, (Function.update s.screen.recordingViews view v k).text =
      (s.screen.recordingViews k).text := by
    intro k
    by_cases hk : k = view
    · rw [hk, Function.update_self]
      exact htext
    · rw [Function.update_of_ne hk]
  cases report with
  | none => exact ⟨hkeep, rfl, Or.inl rfl⟩
  | some info => exact ⟨hkeep, rfl, Or.inr (hreport info rfl)⟩

/-- A text that is reported from a cell becomes the cell's text and the controller's. -/
theorem textOf_handle_report (s : RegisterForm) (number view : ℕ) (text : String) (k : ℕ) :
    (s.handle number (.recognize view text)).textOf k = if k = view then text else s.textOf k := by
  change (Function.update s.screen.recordingViews view _ k).text = _
  rw [Function.update_apply]
  split_ifs <;> rfl

/-- Editing page 0 sets the name field of its cell. -/
theorem nameOf_modifyPage (s : RegisterForm) {n : ℕ} (hpage : s.pageCells 0 = some n)
    (hn : n < s.cells.length) (text : String) :
    (s.modifyPage 0 fun cell => { cell with nameText := text }).nameOf n = some text := by
  simp only [modifyPage, hpage, nameOf, List.getElem?_modify]
  rw [List.getElem?_eq_getElem hn]
  simp

/-! ## Uploads -/

/-- The event is a tap on the next button that registers. -/
def registers (s : RegisterForm) : Event → Bool
  | .didTapNextButton => s.currentPage == 2
  | _ => false

/-- Changing the cell of a page. -/
theorem modifyPage_eq (s : RegisterForm) (page : ℕ) (f : RegisterCell → RegisterCell) :
    ∃ cells, s.modifyPage page f = { s with cells } ∧ cells.length = s.cells.length := by
  unfold modifyPage
  cases s.pageCells page with
  | none => exact ⟨s.cells, rfl, rfl⟩
  | some n => exact ⟨_, rfl, List.length_modify ..⟩

theorem setupNaxtPageUI_eq (s : RegisterForm) (page : ℕ) :
    ∃ cells, s.setupNaxtPageUI page = { s with cells } ∧ cells.length = s.cells.length := by
  unfold setupNaxtPageUI
  split_ifs
  · exact modifyPage_eq s _ _
  · exact modifyPage_eq s _ _
  · exact ⟨s.cells, rfl, rfl⟩

/-- It neither uploads nor turns the page. -/
theorem modifyPage_keeps (s : RegisterForm) (page : ℕ) (f : RegisterCell → RegisterCell) :
    (s.modifyPage page f).uploads = s.uploads ∧
      (s.modifyPage page f).currentPage = s.currentPage := by
  obtain ⟨cells, hcells, -⟩ := modifyPage_eq s page f
  rw [hcells]
  exact ⟨rfl, rfl⟩

theorem setupNaxtPageUI_keeps (s : RegisterForm) (page : ℕ) :
    (s.setupNaxtPageUI page).uploads = s.uploads ∧
      (s.setupNaxtPageUI page).currentPage = s.currentPage := by
  obtain ⟨cells, hcells, -⟩ := setupNaxtPageUI_eq s page
  rw [hcells]
  exact ⟨rfl, rfl⟩

/-- A page comes on screen in a new cell, or in one that shows no page. -/
theorem cellForItemAt_cases {s s' : RegisterForm} {page : ℕ} {reused : Option ℕ}
    (h : s.cellForItemAt page reused = some s') :
    s' = { s with
        cells := (s.cells ++ [RegisterCell.new]).modify s.cells.length fun cell =>
          cell.setViewModel ⟨page⟩
        screen := { s.screen with
          recordingViews := Function.update s.screen.recordingViews s.cells.length .new }
        pageCells := Function.update s.pageCells page (some s.cells.length) } ∨
      ∃ n, n < s.cells.length ∧ s.isOnScreen n = false ∧
        s' = { s with
          cells := s.cells.modify n fun cell => cell.setViewModel ⟨page⟩
          pageCells := Function.update s.pageCells page (some n) } := by
  obtain ⟨⟨n, t⟩, hdequeue, h⟩ := Option.bind_eq_some_iff.1 h
  obtain rfl := Option.some.inj h
  cases reused with
  | none =>
    obtain ⟨rfl, rfl⟩ := Prod.mk.inj (Option.some.inj hdequeue)
    exact Or.inl rfl
  | some m =>
    simp only [dequeueReusableCell] at hdequeue
    split_ifs at hdequeue with hfree
    obtain ⟨rfl, rfl⟩ := Prod.mk.inj (Option.some.inj hdequeue)
    exact Or.inr ⟨m, hfree.1, hfree.2, rfl⟩

/-- Only a tap that registers uploads, and it takes the controller's fields. -/
theorem step_uploads {number : ℕ} {s s' : RegisterForm} {e : Event}
    (h : s.step number e = some s') :
    s'.uploads = s.uploads ++ if s.registers e then [s.screen.characterItem] else [] := by
  have hquiet : ∀ t : RegisterForm, t.uploads = s.uploads → s.registers e = false →
      t.uploads = s.uploads ++ if s.registers e then [s.screen.characterItem] else [] := by
    intro t huploads hregisters
    rw [huploads, hregisters]
    exact (List.append_nil _).symm
  cases e with
  | cellForItemAt page reused =>
    simp only [step] at h
    split_ifs at h
    obtain rfl | ⟨n, -, -, rfl⟩ := cellForItemAt_cases h
    · exact hquiet _ rfl rfl
    · exact hquiet _ rfl rfl
  | didEndDisplaying page | didTapPrevButton =>
    obtain rfl := Option.some.inj h
    exact hquiet _ rfl rfl
  | didTapNextButton =>
    obtain rfl := Option.some.inj h
    by_cases hpage : s.currentPage = 2
    · rw [didTapNextButton, if_pos hpage, registers, hpage]
      rfl
    · rw [didTapNextButton, if_neg hpage]
      exact hquiet _ rfl (beq_eq_false_iff_ne.2 hpage)
  | scrollViewWillEndDragging page =>
    obtain rfl := Option.some.inj h
    exact hquiet _ (setupNaxtPageUI_keeps _ _).1 rfl
  | timer =>
    simp only [step] at h
    split at h
    · obtain rfl := Option.some.inj h
      exact hquiet _ (setupNaxtPageUI_keeps _ _).1 rfl
    · cases h
  | didFinishPicking image =>
    obtain rfl := Option.some.inj h
    exact hquiet _ (modifyPage_keeps _ _ _).1 rfl
  | didChangeText text =>
    obtain ⟨n, -, rfl⟩ := Option.map_eq_some_iff.1 h
    exact hquiet _ (modifyPage_keeps _ _ _).1 rfl
  | textViewDidChange text | didTapRecordButton starts =>
    obtain ⟨n, -, rfl⟩ := Option.map_eq_some_iff.1 h
    exact hquiet _ rfl rfl
  | recognize cell dialogue =>
    simp only [step] at h
    split_ifs at h
    obtain rfl := Option.some.inj h
    exact hquiet _ rfl rfl

/-! ## The form -/

/-- The events that move between the pages, or pick an image. -/
def leavesForm : Event → Bool
  | .didTapPrevButton | .didTapNextButton | .scrollViewWillEndDragging _ | .timer => true
  | .didFinishPicking _ => true
  | _ => false

theorem step_sameForm {number : ℕ} {s s' : RegisterForm} {e : Event}
    (h : s.step number e = some s') (he : leavesForm e = true) : SameForm s s' := by
  cases e with
  | didTapPrevButton =>
    obtain rfl := Option.some.inj h
    exact sameForm_counters s _ _ _
  | didTapNextButton =>
    obtain rfl := Option.some.inj h
    exact sameForm_didTapNextButton s
  | scrollViewWillEndDragging page =>
    obtain rfl := Option.some.inj h
    exact (sameForm_counters s (min page 2) s.timers s.uploads).trans
      (sameForm_setupNaxtPageUI _ page)
  | timer =>
    cases htimers : s.timers with
    | nil =>
      simp only [step, htimers] at h
      cases h
    | cons pageNumber timers =>
      simp only [step, htimers] at h
      obtain rfl := Option.some.inj h
      exact (sameForm_counters s s.currentPage timers s.uploads).trans
        (sameForm_setupNaxtPageUI _ pageNumber)
  | didFinishPicking image =>
    obtain rfl := Option.some.inj h
    exact sameForm_didFinishPicking s image
  | _ => cases he

theorem step_cellForItemAt {number page : ℕ} {reused : Option ℕ} {s s' : RegisterForm}
    (h : s.step number (.cellForItemAt page reused) = some s') :
    ∃ n, GivesCell s s' page reused n := by
  simp only [step] at h
  split_ifs at h
  exact cellForItemAt_givesCell h

theorem step_pagesHaveCells (number : ℕ) (s : RegisterForm) (e : Event) (s' : RegisterForm)
    (hs : s.PagesHaveCells) (h : s.step number e = some s') : s'.PagesHaveCells := by
  cases e with
  | cellForItemAt page reused =>
    obtain ⟨n, hgives⟩ := step_cellForItemAt h
    intro p k hk
    rw [hgives.pageCells, Function.update_apply] at hk
    split_ifs at hk
    · obtain rfl := Option.some.inj hk
      exact hgives.made
    · exact Nat.lt_of_lt_of_le (hs p k hk) hgives.grows
  | didEndDisplaying page =>
    obtain rfl := Option.some.inj h
    intro p k hk
    simp only [Function.update_apply] at hk
    split_ifs at hk
    exact hs p k hk
  | didChangeText text =>
    obtain ⟨n, hn, rfl⟩ := Option.map_eq_some_iff.1 h
    intro p k hk
    simp only [handle, RegisterScreen.handle, modifyPage, hn] at hk ⊢
    rw [List.length_modify]
    exact hs p k hk
  | textViewDidChange text | didTapRecordButton starts =>
    obtain ⟨n, -, rfl⟩ := Option.map_eq_some_iff.1 h
    exact hs
  | recognize cell dialogue =>
    simp only [step] at h
    split_ifs at h
    obtain rfl := Option.some.inj h
    exact hs
  | _ => exact (step_sameForm h rfl).pagesHaveCells hs

/-- Where a page comes on screen, only the contents of its cell are to be looked at. -/
theorem showsWhatItUploads_cellForItemAt {s s' : RegisterForm} {page n : ℕ} {reused : Option ℕ}
    (hs : s.PagesHaveCells) (hshows : s.ShowsWhatItUploads)
    (hgives : GivesCell s s' page reused n) :
    s'.ShowsWhatItUploads ↔ s.KeepsForm (.cellForItemAt page reused) := by
  constructor
  · intro h
    refine ⟨fun hpage => ?_, fun hpage => ?_⟩
    · subst hpage
      rw [← hgives.name, ← hgives.nameText]
      exact h.name n (by rw [hgives.pageCells, Function.update_self])
    · subst hpage
      rw [← hgives.text, ← hgives.audioText]
      exact h.text n (by rw [hgives.pageCells, Function.update_self])
  · rintro ⟨hname, htext⟩
    refine ⟨fun k hk => ?_, fun k hk => ?_⟩
    · rw [hgives.pageCells, Function.update_apply] at hk
      rw [hgives.nameText]
      split_ifs at hk with hpage
      · obtain rfl := Option.some.inj hk
        rw [hgives.name]
        exact hname hpage.symm
      · rw [hgives.names k (hs 0 k hk)]
        exact hshows.name k hk
    · rw [hgives.pageCells, Function.update_apply] at hk
      rw [hgives.audioText]
      split_ifs at hk with hpage
      · obtain rfl := Option.some.inj hk
        rw [hgives.text]
        exact htext hpage.symm
      · rw [hgives.texts k (hs 2 k hk)]
        exact hshows.text k hk

theorem step_showsWhatItUploads (number : ℕ) (s : RegisterForm) (e : Event) (s' : RegisterForm)
    (hs : s.PagesHaveCells) (hshows : s.ShowsWhatItUploads) (h : s.step number e = some s') :
    s'.ShowsWhatItUploads ↔ s.KeepsForm e := by
  cases e with
  | cellForItemAt page reused =>
    obtain ⟨n, hgives⟩ := step_cellForItemAt h
    exact showsWhatItUploads_cellForItemAt hs hshows hgives
  | didEndDisplaying page =>
    obtain rfl := Option.some.inj h
    refine iff_of_true ⟨fun k hk => ?_, fun k hk => ?_⟩ trivial
    · simp only [Function.update_apply] at hk
      split_ifs at hk
      exact hshows.name k hk
    · simp only [Function.update_apply] at hk
      split_ifs at hk
      exact hshows.text k hk
  | didChangeText text =>
    obtain ⟨n, hn, rfl⟩ := Option.map_eq_some_iff.1 h
    have hname := nameOf_modifyPage s hn (hs 0 n hn) text
    simp only [modifyPage, hn] at hname ⊢
    refine iff_of_true ⟨fun k hk => ?_, hshows.text⟩ trivial
    obtain rfl : n = k := Option.some.inj (hn.symm.trans hk)
    exact hname
  | textViewDidChange text =>
    obtain ⟨n, hn, rfl⟩ := Option.map_eq_some_iff.1 h
    refine iff_of_true ⟨hshows.name, fun k hk => ?_⟩ trivial
    obtain rfl : n = k := Option.some.inj (hn.symm.trans hk)
    exact (textOf_handle_report s number n text n).trans (if_pos rfl)
  | didTapRecordButton starts =>
    obtain ⟨n, hn, rfl⟩ := Option.map_eq_some_iff.1 h
    obtain ⟨htexts, hname, htext⟩ := handle_didTapRecordButton s number n starts
    refine iff_of_true ⟨fun k hk => ?_, fun k hk => ?_⟩ trivial
    · rw [hname]
      exact hshows.name k hk
    · obtain rfl : n = k := Option.some.inj (hn.symm.trans hk)
      rw [htexts]
      rcases htext with hkept | hreported
      · rw [hkept]
        exact hshows.text n hn
      · exact hreported.symm
  | recognize cell dialogue =>
    simp only [step] at h
    split_ifs at h
    obtain rfl := Option.some.inj h
    -- the controller takes the result over, the page only where it is the cell's
    have htext : ∀ k, (s.handle number (.recognize cell dialogue)).textOf k = dialogue ↔
        k = cell ∨ s.textOf k = dialogue := by
      intro k
      rw [textOf_handle_report]
      split_ifs with hk
      · exact iff_of_true rfl (Or.inl hk)
      · exact (or_iff_right hk).symm
    exact ⟨fun hafter k hk => (htext k).1 (hafter.text k hk),
      fun hkeeps => ⟨hshows.name, fun k hk => (htext k).2 (hkeeps k hk)⟩⟩
  | _ => exact iff_of_true ((step_sameForm h rfl).showsWhatItUploads hshows) trivial

/-! ## What has been seen -/

/-- The name and the text that the form has shown last, and the last recognition result that has come
in since page 2 left the screen. -/
structure Seen where
  name : Option String
  text : Option String
  late : Option String

namespace Seen

/-- Nothing has been seen. -/
def new : Seen where
  name := none
  text := none
  late := none

/-- What has been seen after an event that leads to `s`. -/
def after (e : Event) (s : RegisterForm) (seen : Seen) : Seen where
  name :=
    match s.pageCells 0 with
    | some n => s.nameOf n
    | none => seen.name
  text :=
    match s.pageCells 2 with
    | some n => some (s.textOf n)
    | none => seen.text
  late :=
    match s.pageCells 2, e with
    | some _, _ => none
    | none, .recognize _ dialogue => some dialogue
    | none, _ => seen.late

end Seen

/-- The form with what has been seen of it. -/
def stepSeen (number : ℕ) : RegisterForm × Seen → Event → Option (RegisterForm × Seen) :=
  withHistory (step number) Seen.after

/-- An upload takes the name and the text that have been seen last. -/
def UploadsWhatWasSeen (number : ℕ) (p : RegisterForm × Seen) (e : Event) : Prop :=
  ∀ s', p.1.step number e = some s' → ∀ item, s'.uploads = p.1.uploads ++ [item] →
    (∀ name, p.2.name = some name → item.name = name) ∧
      ∀ text, p.2.text = some text → item.text = text

/-- The condition on an upload: no recognition result has come in since page 2 left the screen, or the
last one says what page 2 showed last. -/
def NothingUnseen (p : RegisterForm × Seen) (e : Event) : Prop :=
  p.1.registers e = true →
    ∀ text dialogue, p.2.text = some text → p.2.late = some dialogue → dialogue = text

/-- The controller's name is the one seen last, and its text the one seen last or recognised since. -/
structure Remembers (s : RegisterForm) (seen : Seen) : Prop where
  name : ∀ name, seen.name = some name → s.screen.nameText = name
  text : ∀ text, seen.text = some text → s.screen.audioText = seen.late.getD text

/-- Without page 0 on screen nothing changes the name. -/
theorem step_nameText {number : ℕ} {s s' : RegisterForm} {e : Event}
    (h : s.step number e = some s') (hpage : s'.pageCells 0 = none) :
    s'.screen.nameText = s.screen.nameText := by
  cases e with
  | cellForItemAt page reused =>
    obtain ⟨n, hgives⟩ := step_cellForItemAt h
    exact hgives.nameText
  | didEndDisplaying page =>
    obtain rfl := Option.some.inj h
    rfl
  | didChangeText text =>
    obtain ⟨n, hn, rfl⟩ := Option.map_eq_some_iff.1 h
    simp [handle, RegisterScreen.handle, modifyPage, hn] at hpage
  | textViewDidChange text =>
    obtain ⟨n, -, rfl⟩ := Option.map_eq_some_iff.1 h
    rfl
  | didTapRecordButton starts =>
    obtain ⟨n, -, rfl⟩ := Option.map_eq_some_iff.1 h
    exact (handle_didTapRecordButton s number n starts).2.1
  | recognize cell dialogue =>
    simp only [step] at h
    split_ifs at h
    obtain rfl := Option.some.inj h
    rfl
  | _ => exact (step_sameForm h rfl).nameText

/-- Without page 2 on screen only a recognition result changes the text. -/
theorem step_audioText {number : ℕ} {s s' : RegisterForm} {e : Event}
    (h : s.step number e = some s') (hpage : s'.pageCells 2 = none) :
    s'.screen.audioText =
      match e with
      | .recognize _ dialogue => dialogue
      | _ => s.screen.audioText := by
  cases e with
  | cellForItemAt page reused =>
    obtain ⟨n, hgives⟩ := step_cellForItemAt h
    exact hgives.audioText
  | didEndDisplaying page =>
    obtain rfl := Option.some.inj h
    rfl
  | didChangeText text =>
    obtain ⟨n, hn, rfl⟩ := Option.map_eq_some_iff.1 h
    simp only [handle, RegisterScreen.handle, modifyPage, hn]
  | textViewDidChange text | didTapRecordButton starts =>
    obtain ⟨n, hn, rfl⟩ := Option.map_eq_some_iff.1 h
    exact absurd (hn.symm.trans hpage) (Option.some_ne_none n)
  | recognize cell dialogue =>
    simp only [step] at h
    split_ifs at h
    obtain rfl := Option.some.inj h
    rfl
  | _ => exact (step_sameForm h rfl).audioText

theorem step_remembers {number : ℕ} {s s' : RegisterForm} {e : Event} {seen : Seen}
    (hs : s.Remembers seen) (h : s.step number e = some s') (hshows : s'.ShowsWhatItUploads) :
    s'.Remembers (seen.after e s') := by
  refine ⟨fun name hname => ?_, fun text htext => ?_⟩
  · simp only [Seen.after] at hname
    cases hpage : s'.pageCells 0 with
    | some n =>
      simp only [hpage] at hname
      exact Option.some.inj ((hshows.name n hpage).symm.trans hname)
    | none =>
      simp only [hpage] at hname
      rw [step_nameText h hpage]
      exact hs.name name hname
  · simp only [Seen.after] at htext ⊢
    cases hpage : s'.pageCells 2 with
    | some n =>
      simp only [hpage] at htext ⊢
      rw [← hshows.text n hpage]
      exact Option.some.inj htext
    | none =>
      simp only [hpage] at htext ⊢
      rw [step_audioText h hpage]
      cases e with
      | recognize cell dialogue => rfl
      | _ => exact hs.text text htext

/-- An upload takes what has been seen unless a result has come in since. -/
theorem Remembers.uploadsWhatWasSeen_iff {number : ℕ} {s s' : RegisterForm} {e : Event}
    {seen : Seen} (hs : s.Remembers seen) (h : s.step number e = some s') :
    UploadsWhatWasSeen number (s, seen) e ↔ NothingUnseen (s, seen) e := by
  have huploads := step_uploads h
  cases hregisters : s.registers e with
  | false =>
    refine iff_of_true (fun t ht item hitem => ?_) fun hupload => ?_
    · obtain rfl : s' = t := Option.some.inj (h.symm.trans ht)
      rw [huploads, hregisters] at hitem
      simp at hitem
    · rw [hregisters] at hupload
      cases hupload
  | true =>
    rw [hregisters, if_pos rfl] at huploads
    constructor
    · intro hseen _ text dialogue htext hlate
      have htaken := (hseen s' h _ huploads).2 text htext
      have hremembered := hs.text text htext
      rw [hlate] at hremembered
      exact hremembered.symm.trans htaken
    · intro hnone t ht item hitem
      obtain rfl : s' = t := Option.some.inj (h.symm.trans ht)
      obtain rfl : s.screen.characterItem = item := by
        rw [huploads] at hitem
        simpa using hitem
      refine ⟨hs.name, fun text htext => ?_⟩
      refine (hs.text text htext).trans ?_
      cases hlate : seen.late with
      | none => rfl
      | some dialogue => exact hnone hregisters text dialogue htext hlate

/-- In every run, pages 0 and 2 show what an upload takes in every state, and each upload takes what
has been seen last, exactly when every event meets `KeepsForm` and `NothingUnseen`. -/
theorem formShowsWhatItUploads_iff (number : ℕ) (device : Device) (es : List Event) :
    (EveryState (step number) ShowsWhatItUploads (new device) es ∧
      AllSteps (stepSeen number) (UploadsWhatWasSeen number) (new device, Seen.new) es) ↔
      AllSteps (stepSeen number) (fun p e => p.1.KeepsForm e ∧ NothingUnseen p e)
        (new device, Seen.new) es := by
  have hpages : (new device).PagesHaveCells := nofun
  have hshows : (new device).ShowsWhatItUploads := ⟨nofun, nofun⟩
  have hseen : (new device).Remembers Seen.new := ⟨nofun, nofun⟩
  have hform : EveryState (step number) ShowsWhatItUploads (new device) es ↔
      AllSteps (stepSeen number) (fun p e => p.1.KeepsForm e) (new device, Seen.new) es :=
    (everyState_iff_allSteps (step_pagesHaveCells number) (step_showsWhatItUploads number) hpages
      hshows).trans allSteps_withHistory.symm
  rw [hform, allSteps_and]
  refine and_congr_right fun hkeeps => ?_
  refine allSteps_congr_of
    (I := fun p => p.1.PagesHaveCells ∧ p.1.ShowsWhatItUploads ∧ p.1.Remembers p.2) ?_ ?_
    ⟨hpages, hshows, hseen⟩ hkeeps
  · rintro ⟨s, seen⟩ e ⟨s', seen'⟩ ⟨hpages, hshows, hs⟩ hkeeps h
    obtain ⟨hstep, hseen⟩ := withHistory_eq_some.1 h
    have hshows' := (step_showsWhatItUploads number s e s' hpages hshows hstep).2 hkeeps
    exact ⟨step_pagesHaveCells number s e s' hpages hstep, hshows',
      hseen ▸ step_remembers hs hstep hshows'⟩
  · rintro ⟨s, seen⟩ e ⟨s', seen'⟩ ⟨-, -, hs⟩ - h
    exact hs.uploadsWhatWasSeen_iff (withHistory_eq_some.1 h).1

/-- Page 2 gets a third cell before page 0 has left; page 0 comes back with that cell, its name
field empty. -/
def comesBackEmpty : List Event :=
  [.cellForItemAt 0 none, .didChangeText "Anna", .didTapNextButton, .cellForItemAt 1 none,
   .didTapNextButton, .cellForItemAt 2 none, .didEndDisplaying 0, .didTapPrevButton,
   .didEndDisplaying 2, .didTapPrevButton, .cellForItemAt 0 (some 2)]

theorem not_showsWhatItUploads_comesBackEmpty :
    ¬ EveryState (step 0) ShowsWhatItUploads (new (Device.new "documents")) comesBackEmpty := by
  intro h
  obtain ⟨s, hs⟩ : ∃ s, run (step 0) (new (Device.new "documents")) comesBackEmpty = some s :=
    ⟨_, rfl⟩
  have hlast := h.last hs
  obtain rfl := Option.some.inj hs
  have hname := hlast.name 2 rfl
  revert hname
  decide

end RegisterForm

end DialogueApp
