import DialogueApp.View.TopCellContents

/-!
# The members views of a recycled row

Nothing takes an old members view away: each assignment of a view model adds one in front
(`setViewModel_conversations`), so after a run of assignments the row has one for each of them, in
their order.  Only a row that has been used once shows its conversation alone.
-/

namespace DialogueApp

namespace TopCellContents

/-- The members views below the cell are those of the cell's own making, so a new one is not among
them. -/
def ViewsMade (c : TopCellContents) : Prop := ∀ view ∈ c.membersViews, view.object < c.made

/-- The conversations of the members views below the cell, back to front. -/
def memberConversations (c : TopCellContents) : List Conversation :=
  c.membersViews.map MembersView.conversation

/-- The members view below the cell is one, made from the conversation whose title the label has. -/
structure ShowsOnly (c : TopCellContents) (viewModel : TopViewModel) : Prop where
  members : c.memberConversations = [viewModel.conversation]
  title : c.titleText = some viewModel.conversation.title

/-! ## One assignment -/

/-- Bringing a view to the front leaves the members views where it has none of its own. -/
theorem flatMap_front (subviews : List Subview) {view : Subview} (h : view.membersViews = []) :
    (subviews.filter (· ≠ view) ++ [view]).flatMap Subview.membersViews =
      subviews.flatMap Subview.membersViews := by
  rw [List.flatMap_append, List.flatMap_singleton, h, List.append_nil]
  induction subviews with
  | nil => rfl
  | cons subview subviews ih =>
    by_cases hsame : subview = view
    · rw [List.filter_cons_of_neg (by simp [hsame]), List.flatMap_cons, hsame, h, ih]
      rfl
    · rw [List.filter_cons_of_pos (by simp [hsame]), List.flatMap_cons, List.flatMap_cons, ih]

@[simp] theorem membersViews_titleLabel (rest : List ArrangedView) :
    (Subview.stackView (.titleLabel :: rest)).membersViews =
      (Subview.stackView rest).membersViews := rfl

@[simp] theorem membersViews_membersView (view : MembersView) (rest : List ArrangedView) :
    (Subview.stackView (.membersView view :: rest)).membersViews =
      view :: (Subview.stackView rest).membersViews := rfl

/-- Taking a view out of a stack view takes no other members view out. -/
theorem membersViews_remove (subview : Subview) (view : ArrangedView) :
    (subview.remove view).membersViews =
      subview.membersViews.filter (fun v => .membersView v ≠ view) := by
  cases subview with
  | stackView arrangedSubviews =>
    rw [Subview.remove]
    induction arrangedSubviews with
    | nil => rfl
    | cons arranged rest ih =>
      by_cases hsame : arranged = view
      · rw [List.filter_cons_of_neg (by simp [hsame]), ih, ← hsame]
        cases arranged <;> simp
      · rw [List.filter_cons_of_pos (by simp [hsame])]
        cases arranged with
        | titleLabel => exact ih
        | membersView v =>
          rw [membersViews_membersView, membersViews_membersView, ih,
            List.filter_cons_of_pos (by simp [hsame])]
  | _ => rfl

/-- A new stack view takes no members view away with the title label and a new members view. -/
theorem flatMap_removeFromStackViews {subviews : List Subview} {view : MembersView}
    (h : view ∉ subviews.flatMap Subview.membersViews) :
    (subviews.map fun subview =>
        (subview.remove .titleLabel).remove (.membersView view)).flatMap Subview.membersViews =
      subviews.flatMap Subview.membersViews := by
  simp only [List.flatMap_map, membersViews_remove]
  refine List.flatMap_congr fun subview hsubview => ?_
  have hother : ∀ v ∈ subview.membersViews, v ≠ view := by
    rintro v hv rfl
    exact h (List.mem_flatMap.2 ⟨subview, hsubview, hv⟩)
  rw [List.filter_filter, List.filter_eq_self]
  intro v hv
  simpa using hother v hv

/-- What is below the cell after an assignment of a view model. -/
theorem setViewModel_subviews (c : TopCellContents) (viewModel : TopViewModel) :
    let view : MembersView := ⟨c.made, viewModel.conversation⟩
    let subviews := c.subviews.filter (· ≠ .baseView) ++ [.baseView]
    (c.setViewModel (some viewModel)).subviews =
      (subviews.filter (· ≠ .startButton) ++ [.startButton]).map (fun subview =>
        (subview.remove .titleLabel).remove (.membersView view)) ++
      [.stackView [.titleLabel, .membersView view]] := rfl

/-- An assignment of a view model puts one more members view in front, and takes none away. -/
theorem setViewModel_membersViews {c : TopCellContents} (hc : c.ViewsMade)
    (viewModel : TopViewModel) :
    (c.setViewModel (some viewModel)).membersViews =
      c.membersViews ++ [⟨c.made, viewModel.conversation⟩] := by
  have hnew : (⟨c.made, viewModel.conversation⟩ : MembersView) ∉ c.membersViews :=
    fun h => Nat.lt_irrefl _ (hc _ h)
  rw [membersViews, setViewModel_subviews, List.flatMap_append, flatMap_removeFromStackViews]
  · rw [flatMap_front _ rfl, flatMap_front _ rfl]
    rfl
  · rwa [flatMap_front _ rfl, flatMap_front _ rfl]

theorem setViewModel_viewsMade {c : TopCellContents} (hc : c.ViewsMade)
    (viewModel : Option TopViewModel) : (c.setViewModel viewModel).ViewsMade := by
  cases viewModel with
  | none => exact hc
  | some viewModel =>
    intro view hview
    change view.object < c.made + 1
    rw [setViewModel_membersViews hc, List.mem_append, List.mem_singleton] at hview
    rcases hview with hold | rfl
    · exact Nat.lt_succ_of_lt (hc view hold)
    · exact Nat.lt_succ_self _

theorem viewsMade_new (now : Timestamp) : (new now).ViewsMade := nofun

/-! ## A run of assignments -/

/-- The row keeps a members view for every view model it has had, in the order they came. -/
theorem foldl_memberConversations {c : TopCellContents} (hc : c.ViewsMade)
    (viewModels : List (Option TopViewModel)) :
    (viewModels.foldl setViewModel c).memberConversations =
      c.memberConversations ++ (viewModels.filterMap id).map TopViewModel.conversation := by
  induction viewModels generalizing c with
  | nil => simp
  | cons viewModel viewModels ih =>
    rw [List.foldl_cons, ih (setViewModel_viewsMade hc viewModel)]
    cases viewModel with
    | none => rfl
    | some viewModel =>
      simp only [memberConversations, setViewModel_membersViews hc]
      simp

/-- After any assignments, the row shows the last conversation alone exactly when no view model was
assigned before it.  The title is the last one's in any case. -/
theorem showsOnly_iff (now : Timestamp) (before : List (Option TopViewModel))
    (last : TopViewModel) :
    ((before ++ [some last]).foldl setViewModel (new now)).ShowsOnly last ↔
      ∀ viewModel ∈ before, viewModel = none := by
  have hviews := foldl_memberConversations (viewsMade_new now) (before ++ [some last])
  have htitle : ((before ++ [some last]).foldl setViewModel (new now)).titleText =
      some last.conversation.title := by
    rw [List.foldl_append]
    rfl
  have hnone : (∀ viewModel ∈ before, viewModel = none) ↔ before.filterMap id = [] := by
    rw [List.filterMap_eq_nil_iff]
    rfl
  rw [hnone]
  constructor
  · intro h
    have hlength : ((before ++ [some last]).filterMap id).length = 1 := by
      have hone := congrArg List.length (hviews.symm.trans h.members)
      rwa [List.length_append, List.length_map, show (new now).memberConversations = [] from rfl,
        List.length_nil, Nat.zero_add] at hone
    rw [List.filterMap_append, List.length_append] at hlength
    exact List.length_eq_zero_iff.1 (Nat.succ.inj hlength)
  · intro h
    refine ⟨?_, htitle⟩
    rw [hviews, List.filterMap_append, h]
    rfl

/-- A cell that is recycled for a second row shows the members of both conversations. -/
theorem not_showsOnly_recycled :
    let first : Conversation := ⟨["clip"], ["anna"], ["anna"], ["Hello"], "First", 1, "pink"⟩
    let second : Conversation := ⟨["clip"], ["ben"], ["ben"], ["Bye"], "Second", 0, "blue"⟩
    let c := [some ⟨first, 0⟩, some ⟨second, 5⟩].foldl setViewModel (new 0)
    c.memberConversations = [first, second] ∧ ¬ c.ShowsOnly ⟨second, 5⟩ := by
  refine ⟨rfl, fun h => ?_⟩
  have hmembers := h.members
  revert hmembers
  decide

end TopCellContents

end DialogueApp
