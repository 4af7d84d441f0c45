import DialogueApp.Proof.OnClient
import DialogueApp.Proof.RegisterPages

/-!
# The form for a character on its client

The world knows of a registration screen its fields and its recording views, and takes a register tap
at any time.  The form for a character has pages, recycled cells and a button that registers on the
last page only.  All the same every run of the form is a run of the world, on any client and in any
world, so what holds of every run of the world holds of the uploads that forms start.
-/

namespace DialogueApp

open Runs

namespace RegisterForm

/-- The event of the registration screen that an event of the form is. -/
def screenEvent (s : RegisterForm) : Event → Option RegisterScreen.Event
  | .didFinishPicking image => some (.didFinishPicking image)
  | .didChangeText text => some (.didChangeText text)
  | .textViewDidChange text => (s.pageCells 2).map fun n => .textViewDidChange n text
  | .didTapRecordButton starts => (s.pageCells 2).map fun n => .didTapRecordButton n starts
  | .recognize cell dialogue => some (.recognize cell dialogue)
  | _ => none

/-- The recording views of cells that have not been made are as they will be made. -/
def FreshViews (s : RegisterForm) : Prop :=
  ∀ n, s.cells.length ≤ n → s.screen.recordingViews n = .new

/-- What an event does to what the world knows of the form. -/
structure StepsAs (number : ℕ) (s : RegisterForm) (e : Event) (s' : RegisterForm) : Prop where
  screen : (s'.screen, s'.device) =
    match s.screenEvent e with
    | some e' => s.screen.handle s.device number e'
    | none => (s.screen, s.device)
  fresh : s'.FreshViews

/-- An event that changes cells, page and timers only. -/
theorem stepsAs_quiet {number : ℕ} {s s' : RegisterForm} {e : Event} (hs : s.FreshViews)
    (hevent : s.screenEvent e = none) (hscreen : s'.screen = s.screen)
    (hdevice : s'.device = s.device) (hlength : s.cells.length ≤ s'.cells.length) :
    StepsAs number s e s' := by
  refine ⟨?_, fun n hn => ?_⟩
  · rw [hevent, hscreen, hdevice]
  · rw [hscreen]
    exact hs n (by omega)

/-- An event that its screen handles. -/
theorem stepsAs_handle {number : ℕ} {s s' : RegisterForm} {e : Event} {e' : RegisterScreen.Event}
    (hs : s.FreshViews) (hevent : s.screenEvent e = some e')
    (hview : ∀ n, e'.view = some n → n < s.cells.length)
    (hscreen : (s'.screen, s'.device) = s.screen.handle s.device number e')
    (hlength : s'.cells.length = s.cells.length) :
    StepsAs number s e s' := by
  refine ⟨?_, fun n hn => ?_⟩
  · rw [hevent, hscreen]
  · rw [hlength] at hn
    have hother : e'.view ≠ some n := fun h => absurd (hview n h) (Nat.not_lt.2 hn)
    have hkeep := (s.screen.handle_keeps s.device number e').2 n hother
    rw [← hscreen] at hkeep
    rw [hkeep]
    exact hs n hn

theorem step_stepsAs {number : ℕ} {s s' : RegisterForm} {e : Event} (hs : s.FreshViews)
    (hpages : s.PagesHaveCells) (h : s.step number e = some s') : StepsAs number s e s' := by
  cases e with
  | cellForItemAt page reused =>
    simp only [step] at h
    split_ifs at h
    obtain rfl | ⟨n, -, -, rfl⟩ := cellForItemAt_cases h
    · refine stepsAs_quiet hs rfl ?_ rfl (by simp)
      -- the view of the new cell was fresh before
      have hsame : Function.update s.screen.recordingViews s.cells.length .new =
          s.screen.recordingViews := by
        rw [← hs s.cells.length (Nat.le_refl _)]
        exact Function.update_eq_self _ _
      simp only [hsame]
    · exact stepsAs_quiet hs rfl rfl rfl (Nat.le_of_eq (List.length_modify ..).symm)
  | didEndDisplaying page | didTapPrevButton =>
    obtain rfl := Option.some.inj h
    exact stepsAs_quiet hs rfl rfl rfl (Nat.le_refl _)
  | didTapNextButton =>
    obtain rfl := Option.some.inj h
    unfold didTapNextButton
    split_ifs <;> exact stepsAs_quiet hs rfl rfl rfl (Nat.le_refl _)
  | scrollViewWillEndDragging page =>
    obtain rfl := Option.some.inj h
    obtain ⟨cells, hcells, hlength⟩ := setupNaxtPageUI_eq { s with currentPage := min page 2 } page
    rw [scrollViewWillEndDragging, hcells]
    exact stepsAs_quiet hs rfl rfl rfl (Nat.le_of_eq hlength.symm)
  | timer =>
    cases htimers : s.timers with
    | nil =>
      simp only [step, htimers] at h
      cases h
    | cons pageNumber timers =>
      simp only [step, htimers] at h
      obtain rfl := Option.some.inj h
      obtain ⟨cells, hcells, hlength⟩ := setupNaxtPageUI_eq { s with timers } pageNumber
      rw [hcells]
      exact stepsAs_quiet hs rfl rfl rfl (Nat.le_of_eq hlength.symm)
  | didFinishPicking image =>
    obtain rfl := Option.some.inj h
    obtain ⟨cells, hcells, hlength⟩ := modifyPage_eq
      { s with screen := { s.screen with selectedImage := image } } 1
      fun cell => { cell with charactorImage := some image }
    rw [didFinishPicking, hcells]
    exact stepsAs_handle hs rfl (fun _ hview => absurd hview.symm (Option.some_ne_none _)) rfl
      hlength
  | didChangeText text =>
    obtain ⟨n, hn, rfl⟩ := Option.map_eq_some_iff.1 h
    obtain ⟨cells, hcells, hlength⟩ := modifyPage_eq s 0 fun cell => { cell with nameText := text }
    rw [hcells]
    exact stepsAs_handle hs rfl (fun _ hview => absurd hview.symm (Option.some_ne_none _)) rfl
      hlength
  | textViewDidChange text | didTapRecordButton starts =>
    obtain ⟨n, hn, rfl⟩ := Option.map_eq_some_iff.1 h
    refine stepsAs_handle hs (by rw [screenEvent, hn]; rfl) (fun m hm => ?_) rfl rfl
    obtain rfl := Option.some.inj hm
    exact hpages 2 _ hn
  | recognize cell dialogue =>
    simp only [step] at h
    split_ifs at h with hcell
    obtain rfl := Option.some.inj h
    refine stepsAs_handle hs rfl (fun m hm => ?_) rfl rfl
    obtain rfl := Option.some.inj hm
    exact hcell

/-! ## The form on a client -/

/-- What an event of the form is for the client, whose `i`-th register tap on this screen is at
`clock i`. -/
def clientEvent (number : ℕ) (clock : ℕ → Timestamp) (s : RegisterForm) (e : Event) :
    Option Client.Event :=
  match s.screenEvent e with
  | some e' => some (.onScreen number e')
  | none => if s.registers e then some (.register number (clock s.uploads.length)) else none

/-- The client shows the form on top of the screens of `cl` and has started the form's uploads. -/
def OnClient (cl : Client) (s : RegisterForm) (cl' : Client) : Prop :=
  ∃ calls, cl.OnTop s.screen s.device calls cl' ∧
    List.Forall₂ (fun item => Client.Started (.character cl.screens.length)
      (.newInfo <$> CharacterService.uploadCharacter item)) s.uploads calls

/-- What the form keeps on its own. -/
structure Opened (s : RegisterForm) : Prop where
  onStack : s.screen.onStack = true
  kind : s.screen.kind = .character
  fresh : s.FreshViews
  pages : s.PagesHaveCells

theorem opened_new (device : Device) : (new device).Opened :=
  ⟨rfl, rfl, fun _ _ => rfl, nofun⟩

theorem step_opened {number : ℕ} {s s' : RegisterForm} {e : Event} (hs : s.Opened)
    (h : s.step number e = some s') : s'.Opened := by
  have hsteps := step_stepsAs hs.fresh hs.pages h
  have hscreen := hsteps.screen
  have hboth : s'.screen.onStack = true ∧ s'.screen.kind = .character := by
    cases hevent : s.screenEvent e with
    | none =>
      rw [hevent] at hscreen
      rw [(Prod.mk.inj hscreen).1]
      exact ⟨hs.onStack, hs.kind⟩
    | some e' =>
      rw [hevent] at hscreen
      have hhandle := congrArg Prod.fst hscreen
      dsimp only at hhandle
      rw [hhandle, (RegisterScreen.handle_keeps _ _ _ _).1, RegisterScreen.handle_kind]
      exact ⟨hs.onStack, hs.kind⟩
  exact ⟨hboth.1, hboth.2, hsteps.fresh, step_pagesHaveCells number s e s' hs.pages h⟩

section

variable {names : Names} {url : URLParser} {client : ℕ} {b : Backend} {cl cl' : Client}

theorem step_onClient {clock : ℕ → Timestamp} {s s' : RegisterForm} {e : Event}
    (h : s.OnClient cl cl') (hs : s.Opened) (hstep : s.step cl.screens.length e = some s') :
    ∃ cl'', run (fun p e => Client.step names url client p.1 p.2 e) (b, cl')
        (s.clientEvent cl.screens.length clock e).toList = some (b, cl'') ∧
      s'.OnClient cl cl'' := by
  obtain ⟨calls, htop, hstarted⟩ := h
  have hscreen := (step_stepsAs hs.fresh hs.pages hstep).screen
  have huploads := step_uploads hstep
  unfold clientEvent
  cases hevent : s.screenEvent e with
  | some e' =>
    rw [hevent] at hscreen
    have hregisters : s.registers e = false := by
      cases e <;> first | rfl | cases hevent
    rw [hregisters, if_neg Bool.false_ne_true, List.append_nil] at huploads
    obtain ⟨cl'', hclient, htop'⟩ := htop.onScreen hs.onStack e' hscreen.symm
    refine ⟨cl'', run_cons_eq_some.2 ⟨_, hclient, rfl⟩, calls, htop', ?_⟩
    rw [huploads]
    exact hstarted
  | none =>
    rw [hevent] at hscreen
    obtain ⟨hsame, hdevice⟩ := Prod.mk.inj hscreen
    cases hregisters : s.registers e with
    | false =>
      rw [hregisters, if_neg Bool.false_ne_true, List.append_nil] at huploads
      refine ⟨cl', rfl, calls, ?_, ?_⟩
      · rw [hsame, hdevice]
        exact htop
      · rw [huploads]
        exact hstarted
    | true =>
      rw [hregisters, if_pos rfl] at huploads
      obtain ⟨cl'', call, hclient, htop', hcall⟩ :=
        htop.registerCharacter hs.onStack hs.kind (clock s.uploads.length)
      refine ⟨cl'', run_cons_eq_some.2 ⟨_, hclient, rfl⟩, calls ++ [call], ?_, ?_⟩
      · rw [hsame, hdevice]
        exact htop'
      · rw [huploads]
        exact List.rel_append hstarted (.cons hcall .nil)

end

/-- What a run of the form is for the client. -/
def clientEvents (number : ℕ) (clock : ℕ → Timestamp) (s : RegisterForm) (es : List Event) :
    List Client.Event :=
  trace (step number) (fun s e => (s.clientEvent number clock e).toList) s es

end RegisterForm

namespace World

open RegisterForm

/-- In every world, and for every client, a run of the form opened on top of the client's screens is a
run of the world.  It leaves the store, the other clients and the create screen alone, the client's
new screen is that of the form, and its new uploads are those the form has started. -/
theorem formOnClient (names : Names) (url : URLParser) (client : ℕ) (clock : ℕ → Timestamp)
    (w : World) (es : List RegisterForm.Event) (s : RegisterForm)
    (hrun : Runs.run (RegisterForm.step (w.parts client).screens.length)
      (RegisterForm.new (w.parts client).device) es = some s) :
    ∃ cl', run names url w (((.showRegisterViewController) :: clientEvents
          (w.parts client).screens.length clock (RegisterForm.new (w.parts client).device) es).map
            (client, ·)) = some ⟨w.shared, Function.update w.parts client cl'⟩ ∧
      s.OnClient (w.parts client) cl' := by
  have hopen : (RegisterForm.new (w.parts client).device).OnClient (w.parts client)
      (w.parts client).showRegisterViewController :=
    ⟨[], ⟨rfl, rfl, rfl, (List.append_nil _).symm⟩, .nil⟩
  obtain ⟨cl', hworld, -, hform⟩ :=
    run_screen names url client w
      (fun s e => (s.clientEvent (w.parts client).screens.length clock e).toList)
      .showRegisterViewController
      (R := fun s cl => s.Opened ∧ s.OnClient (w.parts client) cl) rfl
      ⟨opened_new _, hopen⟩ (fun s cl e s' hR hstep => by
        obtain ⟨cl'', hclient, hform⟩ := step_onClient hR.2 hR.1 hstep
        exact ⟨cl'', hclient, step_opened hR.1 hstep, hform⟩) hrun
  exact ⟨cl', hworld, hform⟩

/-- A name, an image and a recording on the three pages, then the register tap. -/
def fillForm : List RegisterForm.Event :=
  [.cellForItemAt 0 none, .didChangeText "name", .didTapNextButton, .cellForItemAt 1 none,
   .didFinishPicking ⟨some [1]⟩, .didTapNextButton, .didEndDisplaying 0, .cellForItemAt 2 (some 0),
   .didTapRecordButton true, .didTapRecordButton true, .textViewDidChange "text",
   .didTapNextButton]

theorem formOnClient_sample :
    ∃ s, Runs.run (RegisterForm.step 0) (RegisterForm.new (Device.new "documents")) fillForm =
        some s ∧ s.uploads.length = 1 ∧
      ∃ cl', run Names.letters URLParser.nonempty (init fun _ => .new "documents")
          (((.showRegisterViewController) :: clientEvents 0 (fun _ => 0)
            (RegisterForm.new (Device.new "documents")) fillForm).map (0, ·)) =
          some ⟨Backend.empty, Function.update (init fun _ => .new "documents").parts 0 cl'⟩ ∧
        s.OnClient (Client.launched (.new "documents")) cl' := by
  have hrun : ∃ s, Runs.run (RegisterForm.step 0) (RegisterForm.new (Device.new "documents"))
      fillForm = some s ∧ s.uploads.length = 1 := ⟨_, rfl, rfl⟩
  obtain ⟨s, hrun, hone⟩ := hrun
  exact ⟨s, hrun, hone, formOnClient Names.letters URLParser.nonempty 0 (fun _ => 0)
    (init fun _ => .new "documents") fillForm s hrun⟩

end World

end DialogueApp
