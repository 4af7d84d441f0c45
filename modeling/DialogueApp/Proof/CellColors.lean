import DialogueApp.Proof.UploadProtocol
import DialogueApp.Proof.WriteLog
import DialogueApp.View.TopViewModel

/-!
# The colours of the conversations

A device counts its conversations in `UserDefaults` and takes the colours in turn, on from where the
launch before has stopped.  The number moves on when the animation of a register tap ends, so the order
of these ends decides, not that of the taps or of the writes.  `animations` lists the uploads of one
client by it, and each stored conversation has the colour of its place in the list.
-/

namespace DialogueApp

open Program CharacterService DialogueService Runs

namespace ChatService

/-- The colour of the conversation with this number, counted from zero. -/
def cellColor (n : ℕ) : CellColorType :=
  match n % 6 with
  | 0 => .purple
  | 1 => .blue
  | 2 => .green
  | 3 => .yellow
  | 4 => .orange
  | _ => .pink

theorem returnCellColor_mod (n : ℕ) :
    returnCellColor ((n % 6 : ℕ) : Int) =
      ((cellColor n).rawValue, (((n + 1) % 6 : ℕ) : Int)) := by
  have hcases : n % 6 = 0 ∨ n % 6 = 1 ∨ n % 6 = 2 ∨ n % 6 = 3 ∨ n % 6 = 4 ∨ n % 6 = 5 := by omega
  rcases hcases with h | h | h | h | h | h
  · rw [cellColor, h, show (n + 1) % 6 = 1 by omega]
    rfl
  · rw [cellColor, h, show (n + 1) % 6 = 2 by omega]
    rfl
  · rw [cellColor, h, show (n + 1) % 6 = 3 by omega]
    rfl
  · rw [cellColor, h, show (n + 1) % 6 = 4 by omega]
    rfl
  · rw [cellColor, h, show (n + 1) % 6 = 5 by omega]
    rfl
  · rw [cellColor, h, show (n + 1) % 6 = 0 by omega]
    rfl

/-- Six conversations in a row have different colours. -/
theorem cellColor_eq_iff (m n : ℕ) : cellColor m = cellColor n ↔ m % 6 = n % 6 := by
  have hlt : ∀ a < 6, ∀ b < 6, cellColor a = cellColor b ↔ a = b := by decide
  have hmod : ∀ k, cellColor (k % 6) = cellColor k := fun k => by rw [cellColor, Nat.mod_mod]; rfl
  rw [← hmod m, ← hmod n]
  exact hlt _ (Nat.mod_lt m (by omega)) _ (Nat.mod_lt n (by omega))

end ChatService

/-- The top screen reads a colour back. -/
theorem TopViewModel.returnCellColor_rawValue {viewModel : TopViewModel} {color : CellColorType}
    (h : viewModel.conversation.color = color.rawValue) : viewModel.returnCellColor = color := by
  rw [TopViewModel.returnCellColor, h]
  cases color <;> rfl

open ChatService

/-! ## The programs -/

/-- A request of an upload whose conversation has this colour; its animation is over. -/
def WritesColor (color : String) : Request → Prop
  | .animate => False
  | .setData .conversations _ data => data.lookup "color" = some (.string color)
  | _ => True

/-- A request of an upload of another kind. -/
def NoConversation : Request → Prop
  | .animate => False
  | .setData .conversations _ _ => False
  | _ => True

theorem WritesColor.kind_ne_animate {color : String} {r : Request} (h : WritesColor color r) :
    r.kind ≠ .animate := by
  intro hkind
  cases r with
  | animate => exact h
  | _ => cases hkind

theorem NoConversation.kind_ne_animate {r : Request} (h : NoConversation r) :
    r.kind ≠ .animate := by
  intro hkind
  cases r with
  | animate => exact h
  | _ => cases hkind

theorem IsStorage.noConversation {r : Request} (h : IsStorage r) : NoConversation r := by
  cases r <;> first | exact h.elim | trivial

theorem IsRead.noConversation {r : Request} (h : IsRead r) : NoConversation r := by
  cases r <;> first | exact h.elim | trivial

section

variable {m : Moment}

theorem uploadCharacter_noConversation {item : CharacterItem} :
    ((uploadCharacter item).run m).Only NoConversation := by
  unfold uploadCharacter
  refine Chain.only_bind trivial fun _ _ => ?_
  refine Chain.only_bind (fistUploadDialogue_only.mono fun _ => IsStorage.noConversation)
    fun _ _ => ?_
  refine Chain.only_bind trivial fun _ _ => ?_
  refine Chain.only_bind (Chain.only_request trivial) fun _ _ => ?_
  refine Chain.only_bind trivial fun _ _ => ?_
  refine Chain.only_bind trivial fun _ _ => ?_
  refine Chain.only_bind (Chain.only_request trivial) fun _ _ => ?_
  refine Chain.only_bind (fetchDocuments_only.mono fun _ => IsRead.noConversation) fun _ _ => ?_
  refine Chain.only_bind (fetchDocuments_only.mono fun _ => IsRead.noConversation) fun _ _ => ?_
  trivial

theorem uploadDialogue_noConversation {item : DialogueItem} :
    ((uploadDialogue item).run m).Only NoConversation := by
  unfold uploadDialogue
  refine Chain.only_bind trivial fun _ _ => ?_
  refine Chain.only_bind (uploadAudio_only.mono fun _ => IsStorage.noConversation) fun _ _ => ?_
  refine Chain.only_bind trivial fun _ _ => ?_
  refine Chain.only_bind (Chain.only_request trivial) fun _ _ => ?_
  exact fetchDocuments_only.mono fun _ => IsRead.noConversation

/-- A registered conversation waits for its animation and gets its colour then. -/
theorem didTapRegisterButton_color (c : CreateChatController) {α : Type} (a : α) :
    ∃ next, ((fun _ => a) <$> c.didTapRegisterButton.2).run m = .call .animate next ∧
      ∀ p, (next p).Only (WritesColor (returnCellColor p.2.colorNumber).1) := by
  refine ⟨fun p => Async.bind (c.writing p) fun q => .done (a, q.2), ?_, fun p => ⟨rfl, ?_⟩⟩
  · show Async.bind (c.didTapRegisterButton.2.run m) _ = _
    rw [CreateChatController.didTapRegisterButton_run]
    rfl
  · intro q
    obtain ⟨_ | _, m'⟩ := q <;> trivial

end

/-! ## One client -/

/-- How far an upload of a client has come in the choice of its colour. -/
inductive ColorStage (first : ℕ) (log : List ℕ) (k : ℕ) : Running Completion → Prop
  | waiting (c : CreateChatController) (m : Moment) (h : k ∉ log) :
      ColorStage first log k (((fun _ => .conversation) <$> c.didTapRegisterButton.2).run m)
  | chosen (n : ℕ) (h : log[n]? = some k) {program : Running Completion}
      (honly : program.Only (WritesColor (cellColor (first + n)).rawValue)) :
      ColorStage first log k program
  | other {program : Running Completion} (honly : program.Only NoConversation) :
      ColorStage first log k program

section

variable {first : ℕ}

/-- A stage stays when further animations end. -/
theorem ColorStage.grow {log : List ℕ} {k k' : ℕ} {program : Running Completion}
    (h : ColorStage first log k program) (hne : k ≠ k') :
    ColorStage first (log ++ [k']) k program := by
  cases h with
  | waiting c m h =>
    refine .waiting c m fun hmem => ?_
    rcases List.mem_append.1 hmem with hold | hnew
    · exact h hold
    · exact hne (List.mem_singleton.1 hnew)
  | chosen n h honly =>
    refine .chosen n ?_ honly
    rw [List.getElem?_append_left (List.getElem?_eq_some_iff.1 h).1]
    exact h
  | other honly => exact .other honly

/-- The pending request by stages. -/
theorem ColorStage.of_call {log : List ℕ} {k : ℕ} {r : Request}
    {next : Reply r × Moment → Running Completion} (h : ColorStage first log k (.call r next)) :
    (∃ next', (.call r next : Running Completion) = .call .animate next' ∧ k ∉ log ∧
      ∀ p, (next' p).Only (WritesColor (returnCellColor p.2.colorNumber).1)) ∨
    (∃ n, log[n]? = some k ∧ WritesColor (cellColor (first + n)).rawValue r ∧
      ∀ p, (next p).Only (WritesColor (cellColor (first + n)).rawValue)) ∨
    NoConversation r ∧ ∀ p, (next p).Only NoConversation := by
  generalize hprogram : (.call r next : Running Completion) = program at h
  cases h with
  | waiting c m hk =>
    obtain ⟨next', heq, honly⟩ := didTapRegisterButton_color c (m := m) Completion.conversation
    exact .inl ⟨next', heq, hk, honly⟩
  | chosen n hn honly =>
    subst hprogram
    exact .inr (.inl ⟨n, hn, honly⟩)
  | other honly =>
    subst hprogram
    exact .inr (.inr honly)

end

namespace Client

/-- The upload whose animation an event ends. -/
def animated (cl : Client) : Event → List ℕ
  | .answer k _ =>
    if (cl.calls[k]?.bind (·.program.request?)).map Request.kind = some .animate then [k] else []
  | _ => []

@[simp] theorem runCompletion_colorNumber (cl : Client) (call : Call) :
    (cl.runCompletion names call).colorNumber = cl.colorNumber := by
  rcases @runCompletion_cases names cl call with h | ⟨screen, create, h, -⟩
  · rw [h]
  · rw [h, popToRoot]
    split_ifs <;> rfl

/-- The number, the uploads and the stored conversations of a client agree with the order in which its
animations have ended, counted from the number `first` that the launch has found. -/
structure Colored (names : Names) (client first : ℕ) (b : Backend) (cl : Client) (log : List ℕ) :
    Prop where
  number : cl.colorNumber = (((first + log.length) % 6 : ℕ) : Int)
  nodup : log.Nodup
  started : ∀ k ∈ log, k < cl.calls.length
  calls : ∀ (k : ℕ) (call : Call), cl.calls[k]? = some call →
    ColorStage first log k call.program
  stored : ∀ k, ∀ d ∈ b.conversations, names.Owns ⟨client, k⟩ d.documentID →
    ∃ n, log[n]? = some k ∧
      d.data.lookup "color" = some (.string (cellColor (first + n)).rawValue)

variable {names : Names} {url : URLParser} {client first : ℕ} {b b' : Backend} {cl cl' : Client}
  {log : List ℕ}

theorem Colored.rely (h : cl.Colored names client first b log)
    (hr : ∀ k, Backend.Rely names ⟨client, k⟩ b b') : cl.Colored names client first b' log where
  number := h.number
  nodup := h.nodup
  started := h.started
  calls := h.calls
  stored k d hd hown := h.stored k d ((hr k).own_documents .conversations d hd hown) hown

/-- A step that leaves the uploads alone. -/
theorem Colored.update (h : cl.Colored names client first b log) (hcalls : cl'.calls = cl.calls)
    (hnumber : cl'.colorNumber = cl.colorNumber) : cl'.Colored names client first b log where
  number := hnumber ▸ h.number
  nodup := h.nodup
  started := hcalls ▸ h.started
  calls := hcalls ▸ h.calls
  stored := h.stored

/-- A step that starts an upload. -/
theorem Colored.start (h : cl.Colored names client first b log) {call : Call}
    (hcalls : cl'.calls = cl.calls ++ [call]) (hnumber : cl'.colorNumber = cl.colorNumber)
    (hstage : cl.calls.length ∉ log → ColorStage first log cl.calls.length call.program) :
    cl'.Colored names client first b log := by
  refine ⟨hnumber ▸ h.number, h.nodup, fun k hk => ?_, fun k call' hcall' => ?_, h.stored⟩
  · rw [hcalls, List.length_append]
    exact Nat.lt_of_lt_of_le (h.started k hk) (Nat.le_add_right _ _)
  · rw [hcalls] at hcall'
    rcases getElem?_concat_cases hcall' with hold | ⟨rfl, rfl⟩
    · exact h.calls k call' hold
    · exact hstage fun hmem => Nat.lt_irrefl _ (h.started _ hmem)

/-- A request leaves the conversations alone, or writes one. -/
theorem perform_conversations_cases {create : CreateChatController} {device : Device} {o : Outcome}
    {r : Request} {reply : Reply r} (h : b.perform create device o r = some (b', reply)) :
    b'.conversations = b.conversations ∨ ∃ id data, r = .setData .conversations id data ∧
      b' = b.setData .conversations ⟨id, data⟩ := by
  rw [Backend.perform_entry h]
  cases hentry : r.written device o with
  | none => exact Or.inl rfl
  | some entry =>
    cases r with
    | setData collection id data =>
      simp only [Request.written] at hentry
      split_ifs at hentry
      obtain rfl := Option.some.inj hentry
      cases collection with
      | conversations => exact Or.inr ⟨id, data, rfl, rfl⟩
      | characters => exact Or.inl rfl
      | dialogues => exact Or.inl rfl
    | putData path data =>
      simp only [Request.written] at hentry
      split_ifs at hentry
      obtain rfl := Option.some.inj hentry
      exact Or.inl rfl
    | putFile path file =>
      simp only [Request.written] at hentry
      split at hentry
      · split_ifs at hentry
        obtain rfl := Option.some.inj hentry
        exact Or.inl rfl
      · cases hentry
    | _ => cases hentry

/-- What a request adds to the conversations. -/
theorem perform_conversations {create : CreateChatController} {device : Device} {o : Outcome}
    {r : Request} {reply : Reply r} (h : b.perform create device o r = some (b', reply))
    {d : Document} (hd : d ∈ b'.conversations) :
    d ∈ b.conversations ∨ ∃ id data, r = .setData .conversations id data ∧ d = ⟨id, data⟩ := by
  rcases perform_conversations_cases h with hsame | ⟨id, data, rfl, rfl⟩
  · rw [hsame] at hd
    exact Or.inl hd
  · rcases List.mem_upsert.1 hd with ⟨hold, -⟩ | rfl
    · exact Or.inl hold
    · exact Or.inr ⟨id, data, rfl, rfl⟩

theorem getElem?_set_cases {α : Type*} {l : List α} {a x : α} {k n : ℕ}
    (h : (l.set k a)[n]? = some x) : n = k ∧ x = a ∨ k ≠ n ∧ l[n]? = some x := by
  by_cases hkn : k = n
  · subst hkn
    obtain ⟨hlt, hx⟩ := List.getElem?_eq_some_iff.1 h
    rw [List.getElem_set_self] at hx
    exact Or.inl ⟨rfl, hx.symm⟩
  · rw [List.getElem?_set_ne hkn] at h
    exact Or.inr ⟨hkn, h⟩

/-- An answer that ends no animation. -/
theorem Colored.quiet (h : cl.Colored names client first b log) {k : ℕ} {call' : Call}
    (hcalls : cl'.calls = cl.calls.set k call') (hnumber : cl'.colorNumber = cl.colorNumber)
    (hstage : ColorStage first log k call'.program)
    (hwritten : ∀ d ∈ b'.conversations, d ∈ b.conversations ∨
      names.Owns ⟨client, k⟩ d.documentID ∧
        ∃ n, log[n]? = some k ∧
          d.data.lookup "color" = some (.string (cellColor (first + n)).rawValue)) :
    cl'.Colored names client first b' log := by
  refine ⟨hnumber ▸ h.number, h.nodup, fun k' hk' => ?_, fun k' call hcall => ?_,
    fun k' d hd hown => ?_⟩
  · rw [hcalls, List.length_set]
    exact h.started k' hk'
  · rw [hcalls] at hcall
    obtain ⟨rfl, rfl⟩ | ⟨-, hold⟩ := getElem?_set_cases hcall
    · exact hstage
    · exact h.calls k' call hold
  · obtain hold | ⟨hfirst, hcolor⟩ := hwritten d hd
    · exact h.stored k' d hold hown
    · obtain rfl : k' = k := (Owner.mk.inj (hown.unique hfirst)).2
      exact hcolor

/-- The end of an animation. -/
theorem Colored.animation (h : cl.Colored names client first b log) {k : ℕ} {call' : Call}
    (hlt : k < cl.calls.length) (hk : k ∉ log) (hcalls : cl'.calls = cl.calls.set k call')
    (hnumber : cl'.colorNumber = (((first + log.length + 1) % 6 : ℕ) : Int))
    (hstage : ColorStage first (log ++ [k]) k call'.program) :
    cl'.Colored names client first b (log ++ [k]) := by
  refine ⟨?_, ?_, fun k' hk' => ?_, fun k' call hcall => ?_, fun k' d hd hown => ?_⟩
  · rw [hnumber, List.length_append]
    rfl
  · refine List.nodup_append.2 ⟨h.nodup, List.nodup_singleton k, fun a ha b hb => ?_⟩
    rintro rfl
    exact hk (List.mem_singleton.1 hb ▸ ha)
  · rw [hcalls, List.length_set]
    rcases List.mem_append.1 hk' with hold | hnew
    · exact h.started k' hold
    · exact (List.mem_singleton.1 hnew) ▸ hlt
  · rw [hcalls] at hcall
    obtain ⟨rfl, rfl⟩ | ⟨hne, hold⟩ := getElem?_set_cases hcall
    · exact hstage
    · exact (h.calls k' call hold).grow (Ne.symm hne)
  · obtain ⟨n, hn, hcolor⟩ := h.stored k' d hd hown
    refine ⟨n, ?_, hcolor⟩
    rw [List.getElem?_append_left (List.getElem?_eq_some_iff.1 hn).1]
    exact hn

/-- The answer to a pending request of the client. -/
theorem Colored.answer (h : cl.Colored names client first b log)
    (hinv : ClientInv names False False client b cl) (hb : b.Consistent names False False)
    {k : ℕ} {o : Outcome} (hstep : cl.answer names client b k o = some (b', cl')) :
    cl'.Colored names client first b' (log ++ cl.animated (.answer k o)) := by
  obtain ⟨call, r, next, reply, hcall, hprogram, hperform, call', hcall', rfl⟩ :=
    answer_cases hstep
  have hdemands := (hinv.calls k call hcall).demands hb hprogram
  have hanimated : cl.animated (.answer k o) = if r.kind = .animate then [k] else [] := by
    simp [animated, hcall, hprogram, Async.request?]
  have hstage := h.calls k call hcall
  rw [hprogram] at hstage
  have hlt := (List.getElem?_eq_some_iff.1 hcall).1
  have hnumber : r.kind ≠ .animate → cl.nextColor r = cl.colorNumber := by
    intro hkind
    cases r with
    | animate => exact absurd rfl hkind
    | _ => rfl
  have hwritten : (∀ id data, r = .setData .conversations id data → ∃ n, log[n]? = some k ∧
        data.lookup "color" = some (.string (cellColor (first + n)).rawValue)) →
      ∀ d ∈ b'.conversations, d ∈ b.conversations ∨ names.Owns ⟨client, k⟩ d.documentID ∧
        ∃ n, log[n]? = some k ∧
          d.data.lookup "color" = some (.string (cellColor (first + n)).rawValue) := by
    intro hwrite d hd
    rcases perform_conversations hperform hd with hold | ⟨id, data, rfl, rfl⟩
    · exact Or.inl hold
    · exact Or.inr ⟨(Backend.demands_setData hdemands).1, hwrite id data rfl⟩
  rcases hstage.of_call with ⟨next', heq, hk, honly⟩ | ⟨n, hn, hcolor, honly⟩ | ⟨hno, honly⟩
  · obtain ⟨rfl, hnext⟩ := Async.call.inj heq
    obtain rfl := eq_of_heq hnext
    obtain ⟨rfl, -⟩ := Backend.perform_animate hperform
    rw [hanimated, Request.kind, if_pos rfl]
    refine h.animation hlt hk (runCompletion_calls call') ?_ (.chosen log.length (by simp) ?_)
    · rw [runCompletion_colorNumber, nextColor, h.number, returnCellColor_mod]
    · have hafter := honly (reply, cl.moment names client k (call.callbacks + 1) o.now)
      rw [moment, h.number, returnCellColor_mod] at hafter
      rw [hcall', Call.resume, moment, h.number]
      exact hafter
  · have hkind := hcolor.kind_ne_animate
    rw [hanimated, if_neg hkind, List.append_nil]
    refine h.quiet (runCompletion_calls call') ?_ ?_ (hwritten ?_)
    · rw [runCompletion_colorNumber, hnumber hkind]
    · exact .chosen n hn (hcall' ▸ honly _)
    · rintro id data rfl
      exact ⟨n, hn, hcolor⟩
  · have hkind := hno.kind_ne_animate
    rw [hanimated, if_neg hkind, List.append_nil]
    refine h.quiet (runCompletion_calls call') ?_ ?_ (hwritten ?_)
    · rw [runCompletion_colorNumber, hnumber hkind]
    · exact .other (hcall' ▸ honly _)
    · rintro id data rfl
      exact hno.elim

theorem Colored.step (h : cl.Colored names client first b log)
    (hinv : ClientInv names False False client b cl) (hb : b.Consistent names False False)
    {e : Event} (hstep : cl.step names url client b e = some (b', cl')) :
    cl'.Colored names client first b' (log ++ cl.animated e) := by
  cases step_cases hstep with
  | answer hanswer => exact h.answer hinv hb hanswer
  | @screen e e' create he hcreate =>
    have hnone : cl.animated e = [] := by
      cases e <;> first | rfl | cases he
    rw [hnone, List.append_nil]
    exact h.update rfl rfl
  | registerConversation =>
    simp only [animated, List.append_nil]
    exact h.start rfl rfl fun hnew => .waiting _ _ hnew
  | registerCharacter =>
    simp only [animated, List.append_nil]
    exact h.start rfl rfl fun _ => .other (Chain.only_map uploadCharacter_noConversation)
  | registerDialogue =>
    simp only [animated, List.append_nil]
    exact h.start rfl rfl fun _ => .other (Chain.only_map uploadDialogue_noConversation)
  | _ =>
    simp only [animated, List.append_nil]
    exact h.update rfl rfl

/-- A new conversation is written by the pending request of an upload. -/
theorem step_conversations {e : Event} (hstep : cl.step names url client b e = some (b', cl'))
    {d : Document} (hd : d ∈ b'.conversations) :
    d ∈ b.conversations ∨ ∃ (k : ℕ) (call : Call) (id : String) (data : Dictionary)
      (next : Bool × Moment → Running Completion), cl.calls[k]? = some call ∧
      call.program = .call (.setData .conversations id data) next ∧ d = ⟨id, data⟩ := by
  cases step_cases hstep with
  | answer hanswer =>
    obtain ⟨call, r, next, reply, hcall, hprogram, hperform, -⟩ := answer_cases hanswer
    rcases perform_conversations hperform hd with hold | ⟨id, data, rfl, rfl⟩
    · exact Or.inl hold
    · exact Or.inr ⟨_, call, id, data, next, hcall, hprogram, rfl⟩
  | _ => exact Or.inl hd

end Client

/-! ## Every run -/

namespace World

variable {names : Names} {url : URLParser} {disks : ℕ → Disk} {w w' : World}

/-- How an event changes the list of the client's uploads whose animations have ended. -/
def seeAnimation (client : ℕ) (w : World) (e : ℕ × Client.Event) (log : List ℕ) : List ℕ :=
  if e.1 = client then log ++ (w.parts client).animated e.2 else log

/-- The uploads of the client whose animations have ended in the run, in that order. -/
def animations (names : Names) (url : URLParser) (client : ℕ) (w : World)
    (es : List (ℕ × Client.Event)) : List ℕ :=
  observe (step names url) (seeAnimation client) w es []

theorem step_colored {client first : ℕ} {e : ℕ × Client.Event} {log : List ℕ}
    (h : w.Inv names False False) (hlog : (w.parts client).Colored names client first w.shared log)
    (hstep : step names url w e = some w') :
    (w'.parts client).Colored names client first w'.shared (seeAnimation client w e log) := by
  obtain ⟨client', e⟩ := e
  obtain ⟨hclient, hparts⟩ := Shared.advance_eq_some hstep
  by_cases hsame : client' = client
  · subst hsame
    rw [seeAnimation, if_pos rfl]
    exact hlog.step (h.2 client') h.1 hclient
  · rw [seeAnimation, if_neg hsame, hparts client (Ne.symm hsame)]
    refine hlog.rely fun k => step_rely h hstep ⟨client, k⟩ fun o heq => ?_
    exact hsame (Prod.mk.inj heq).1

theorem run_colored {es : List (ℕ × Client.Event)}
    (hrun : run names url (init disks) es = some w) (client : ℕ) :
    (w.parts client).Colored names client (disks client).colorNumber w.shared
      (animations names url client (init disks) es) := by
  have hinit : ((init disks).parts client).Colored names client (disks client).colorNumber
      (init disks).shared [] := by
    refine ⟨?_, List.nodup_nil, nofun, nofun, nofun⟩
    rw [List.length_nil, Nat.add_zero, Nat.mod_eq_of_lt (disks client).colorNumber.isLt]
    rfl
  have hboth := run_observe_invariant
    (J := fun w log => w.Inv names False False ∧
      (w.parts client).Colored names client (disks client).colorNumber w.shared log)
    (fun w e w' log h hstep => ⟨step_inv_false w e w' h.1 hstep, step_colored h.1 h.2 hstep⟩)
    ⟨inv_init disks, hinit⟩ hrun
  exact hboth.2

/-- Every conversation belongs to an upload. -/
theorem conversation_owner {es : List (ℕ × Client.Event)}
    (hrun : run names url (init disks) es = some w) :
    ∀ d ∈ w.shared.conversations, ∃ i, names.Owns i d.documentID := by
  have hboth := run_invariant
    (I := fun w : World => w.Inv names False False ∧
      ∀ d ∈ w.shared.conversations, ∃ i, names.Owns i d.documentID)
    (fun w e w' h hstep => ⟨step_inv_false w e w' h.1 hstep, fun d hd => ?_⟩)
    ⟨inv_init disks, nofun⟩ hrun
  · exact hboth.2
  · obtain ⟨hclient, -⟩ := Shared.advance_eq_some hstep
    rcases Client.step_conversations hclient hd with
      hold | ⟨k, call, id, data, next, hcall, hprogram, rfl⟩
    · exact h.2 d hold
    · have hdemands := ((h.1.2 e.1).calls k call hcall).demands h.1.1 hprogram
      exact ⟨_, (Backend.demands_setData hdemands).1⟩

/-- In every run, a stored conversation has the colour of its place in the order in which the
animations of its device have ended, counted on from the number the launch has found, and its row on
the top screen is shown in that colour; a device gives six conversations in a row different colours. -/
theorem cellColors (es : List (ℕ × Client.Event)) (w : World)
    (hrun : run names url (init disks) es = some w) :
    (∀ d ∈ w.shared.conversations, ∃ client k n, names.Owns ⟨client, k⟩ d.documentID ∧
      (animations names url client (init disks) es)[n]? = some k ∧
      ∀ now cellNumber, TopViewModel.returnCellColor ⟨Conversation.init d.data now, cellNumber⟩ =
        cellColor ((disks client).colorNumber + n)) ∧
    ∀ client k k' n n',
      (animations names url client (init disks) es)[n]? = some k →
      (animations names url client (init disks) es)[n']? = some k' →
      n < n' → n' < n + 6 → k ≠ k' ∧
        cellColor ((disks client).colorNumber + n) ≠ cellColor ((disks client).colorNumber + n') := by
  constructor
  · intro d hd
    obtain ⟨i, hown⟩ := conversation_owner hrun d hd
    obtain ⟨n, hn, hcolor⟩ := (run_colored hrun i.client).stored i.call d hd hown
    refine ⟨i.client, i.call, n, hown, hn, fun now cellNumber => ?_⟩
    apply TopViewModel.returnCellColor_rawValue
    simp [Conversation.init, Dictionary.string, hcolor]
  · intro client k k' n n' hk hk' hlt hsix
    have hnodup := (run_colored hrun client).nodup
    obtain ⟨hn, rfl⟩ := List.getElem?_eq_some_iff.1 hk
    obtain ⟨hn', rfl⟩ := List.getElem?_eq_some_iff.1 hk'
    constructor
    · intro heq
      have hplace := (List.Nodup.getElem_inj_iff hnodup).1 heq
      omega
    · rw [Ne, cellColor_eq_iff]
      omega

theorem cellColors_sample :
    ∃ w, run Names.letters URLParser.nonempty (init fun _ => ⟨"documents", true, 4⟩)
        (registerCharacter ++ (pick :: pick :: registerConversation)) = some w ∧
      w.shared.conversations.length = 1 ∧
      ∀ d ∈ w.shared.conversations, ∃ client k n, Names.letters.Owns ⟨client, k⟩ d.documentID ∧
        (animations Names.letters URLParser.nonempty client (init fun _ => ⟨"documents", true, 4⟩)
          (registerCharacter ++ (pick :: pick :: registerConversation)))[n]? = some k ∧
        ∀ now cellNumber,
          TopViewModel.returnCellColor ⟨Conversation.init d.data now, cellNumber⟩ =
            cellColor (4 + n) := by
  have hrun : ∃ w, run Names.letters URLParser.nonempty (init fun _ => ⟨"documents", true, 4⟩)
      (registerCharacter ++ (pick :: pick :: registerConversation)) = some w ∧
      w.shared.conversations.length = 1 := ⟨_, rfl, rfl⟩
  obtain ⟨w, hrun, hone⟩ := hrun
  exact ⟨w, hrun, hone, (cellColors _ w hrun).1⟩

end World

end DialogueApp
