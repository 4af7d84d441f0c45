import DialogueApp.Proof.CellColors
import DialogueApp.Proof.ClientScreen
import DialogueApp.Proof.OneConversation

/-!
# A presentation on a client

What a presentation of the create screen is within a world: from a state in which no conversation of
a client is on its way up to its next reset, the client's create screen and the uploads of its
register button go through a run of `Presentation`, whose answers are those to these uploads.  The
documents it writes are the client's among the conversations that the store has got since.  So a
client that taps after failures only adds one conversation at most.
-/

namespace DialogueApp

open Runs

/-! ## A place in a list, counted among the members with `p` -/

section filter

variable {α : Type*} {p : α → Bool} {l : List α} {a a' : α} {j n : ℕ}

theorem getElem?_drop_sub (hn : n ≤ j) (h : l[j]? = some a) : (l.drop n)[j - n]? = some a := by
  rw [List.getElem?_drop, Nat.add_sub_cancel' hn]
  exact h

/-- What is before the place, at it and behind it. -/
theorem filter_set_split (hj : j < l.length) : (l.set j a').filter p =
    (l.take j).filter p ++ ([a'].filter p ++ (l.drop (j + 1)).filter p) := by
  rw [List.set_eq_take_append_cons_drop, if_pos hj, ← List.filter_append, ← List.filter_append]
  rfl

theorem filter_split (h : l[j]? = some a) : l.filter p =
    (l.take j).filter p ++ ([a].filter p ++ (l.drop (j + 1)).filter p) := by
  obtain ⟨hj, rfl⟩ := List.getElem?_eq_some_iff.1 h
  rw [← filter_set_split hj, List.set_getElem_self]

theorem filter_getElem? (h : l[j]? = some a) (ha : p a = true) :
    (l.filter p)[(l.take j).countP p]? = some a := by
  rw [filter_split h, List.countP_eq_length_filter, List.getElem?_append_right (Nat.le_refl _),
    Nat.sub_self, List.filter_singleton, ha]
  rfl

theorem filter_set (h : l[j]? = some a) (ha : p a = true) (ha' : p a' = true) :
    (l.set j a').filter p = (l.filter p).set ((l.take j).countP p) a' := by
  rw [filter_set_split (List.getElem?_eq_some_iff.1 h).1, filter_split h,
    List.countP_eq_length_filter, List.set_append_right _ _ (Nat.le_refl _), Nat.sub_self,
    List.filter_singleton, List.filter_singleton, ha, ha']
  rfl

theorem filter_set_of_not (h : l[j]? = some a) (ha : p a = false) (ha' : p a' = false) :
    (l.set j a').filter p = l.filter p := by
  rw [filter_set_split (List.getElem?_eq_some_iff.1 h).1, filter_split h, List.filter_singleton,
    List.filter_singleton, ha, ha']
  rfl

end filter

/-! ## What is added to the conversations -/

section added

variable {names : Names} {url : URLParser} {client : ℕ} {b b' : Backend} {cl cl' : Client}
  {written : List Document}

/-- The document belongs to an upload of the client. -/
def Names.OfClient (names : Names) (client : ℕ) (d : Document) : Prop :=
  ∃ k, names.Owns ⟨client, k⟩ d.documentID

theorem Names.OfClient.unique {client client' : ℕ} {d : Document} (h : names.OfClient client d)
    (h' : names.OfClient client' d) : client = client' := by
  obtain ⟨k, hk⟩ := h
  obtain ⟨k', hk'⟩ := h'
  exact (Owner.mk.inj (hk.unique hk')).1

/-- The same documents of the client are added to the conversations and to a list. -/
def Adds (names : Names) (client : ℕ) (b b' : Backend) (written written' : List Document) : Prop :=
  ∃ added, b'.conversations = b.conversations ++ added ∧ written' = written ++ added ∧
    ∀ d ∈ added, names.OfClient client d

theorem Adds.none (h : b'.conversations = b.conversations) :
    Adds names client b b' written written :=
  ⟨[], by rw [h, List.append_nil], (List.append_nil _).symm, nofun⟩

theorem conversations_setData {i : Owner} {d : Document} (hown : names.Owns i d.documentID)
    (hfresh : ¬ b.StoredBy names .conversations i) :
    (b.setData .conversations d).conversations = b.conversations ++ [d] :=
  List.upsert_of_fresh fun d' hd' heq => hfresh ⟨d', hd', heq ▸ hown⟩

theorem Adds.setData {frozen isCharacter : Prop} {k : ℕ} {id : String} {data : Dictionary}
    (h : b.Demands names frozen isCharacter ⟨client, k⟩ (.setData .conversations id data)) :
    Adds names client b (b.setData .conversations ⟨id, data⟩) written
      (written ++ [⟨id, data⟩]) := by
  obtain ⟨hown, hfresh⟩ := Backend.demands_setData h
  refine ⟨[⟨id, data⟩], conversations_setData hown hfresh, rfl, fun d hd => ?_⟩
  obtain rfl := List.mem_singleton.1 hd
  exact ⟨k, hown⟩

/-- A request of an upload adds one of its documents to the conversations, or none. -/
theorem Backend.Effect.conversations {i : Owner} (h : Backend.Effect names i b b') :
    ∃ added, b'.conversations = b.conversations ++ added ∧
      ∀ d ∈ added, names.Owns i d.documentID := by
  cases h with
  | none h => exact ⟨[], by rw [h, List.append_nil], nofun⟩
  | document collection d hown hfresh h =>
    subst h
    cases collection with
    | conversations =>
      refine ⟨[d], conversations_setData hown hfresh, fun d' hd' => ?_⟩
      rw [List.mem_singleton.1 hd']
      exact hown
    | _ => exact ⟨[], (List.append_nil _).symm, nofun⟩
  | object object hown hfree h =>
    subst h
    exact ⟨[], (List.append_nil _).symm, nofun⟩

/-- An upload of another kind adds none. -/
theorem perform_noConversation {create : CreateChatController} {device : Device} {o : Outcome}
    {r : Request} {reply : Reply r} (hr : NoConversation r)
    (h : b.perform create device o r = some (b', reply)) : b'.conversations = b.conversations := by
  rcases Client.perform_conversations_cases h with hsame | ⟨id, data, rfl, -⟩
  · exact hsame
  · exact hr.elim

/-- What one event of a client adds to the conversations. -/
theorem Client.step_conversations_added {e : Client.Event} (hb : b.Consistent names False False)
    (hinv : ClientInv names False False client b cl)
    (hstep : cl.step names url client b e = some (b', cl')) :
    ∃ added, b'.conversations = b.conversations ++ added ∧
      ∀ d ∈ added, names.OfClient client d := by
  cases step_cases hstep with
  | @answer k _ _ _ hanswer =>
    obtain ⟨call, r, next, reply, hcall, hprogram, hperform, -⟩ := answer_cases hanswer
    have hdemands := (hinv.calls k call hcall).demands hb hprogram
    obtain ⟨added, hadded, hown⟩ := (Backend.perform_effect hdemands hperform).conversations
    exact ⟨added, hadded, fun d hd => ⟨k, hown d hd⟩⟩
  | _ => exact ⟨[], (List.append_nil _).symm, nofun⟩

end added

/-! ## The uploads of the register button -/

/-- The upload of the register button. -/
def Call.isConversation (call : Call) : Bool := decide (call.origin = .conversation)

/-- A registration as an upload of a client. -/
def asCompletion (program : Running Unit) : Running Completion :=
  Async.bind program fun q => .done (.conversation, q.2)

namespace Client

variable {names : Names} {url : URLParser} {client n : ℕ} {b b' : Backend} {cl cl' : Client}
  {p : Presentation}

/-- The registrations among the uploads from the `n`-th on. -/
def registrations (cl : Client) (n : ℕ) : List Call :=
  (cl.calls.drop n).filter Call.isConversation

/-- The number of the registration among them that is the `k`-th upload. -/
def registrationNumber (cl : Client) (n k : ℕ) : ℕ :=
  ((cl.calls.drop n).take (k - n)).countP Call.isConversation

/-- What an event of the client is for the presentation that was opened before the `n`-th upload. -/
def presentationEvent (names : Names) (url : URLParser) (client n : ℕ) (b : Backend) (cl : Client)
    (e : Event) : Option Presentation.Event :=
  match e with
  | .didTapRegisterButton now =>
    some (.didTapRegisterButton (cl.moment names client cl.calls.length 0 now))
  | .answer k o =>
    match cl.calls[k]? with
    | some call =>
      if call.isConversation then
        some (.answer (cl.registrationNumber n k) o.ok
          (cl.moment names client k (call.callbacks + 1) o.now))
      else (cl.createEvent names url client b e).map .screen
    | none => none
  | e => (cl.createEvent names url client b e).map .screen

/-- An upload of a registration screen writes no conversation. -/
def OthersQuiet (cl : Client) : Prop :=
  ∀ call ∈ cl.calls, call.isConversation = false → call.program.Only NoConversation

/-- The presentation that was opened before the `n`-th upload, with no conversation on its way. -/
structure Presents (n : ℕ) (cl : Client) (p : Presentation) : Prop where
  create : p.create = cl.create
  presented : p.dismissed = false
  stages : ∀ q ∈ p.registrations, Presentation.Stage q
  registrations : (cl.registrations n).map Call.program = p.registrations.map asCompletion
  opened : n ≤ cl.calls.length
  settled : ∀ (k : ℕ) (call : Call), k < n → cl.calls[k]? = some call →
    call.isConversation = true → call.program.pending = false

theorem presents_new (hidle : ∀ call ∈ cl.calls, call.isConversation = true →
    call.program.pending = false) : cl.Presents cl.calls.length (.new cl.create) where
  create := rfl
  presented := rfl
  stages _ hq := absurd hq List.not_mem_nil
  registrations := by
    rw [Client.registrations, List.drop_length]
    rfl
  opened := Nat.le_refl _
  settled _ call _ hk horigin := hidle call (List.mem_of_getElem? hk) horigin

/-- A step that leaves the uploads alone. -/
theorem Presents.same (h : cl.Presents n p) (hcreate : cl'.create = cl.create)
    (hcalls : cl'.calls = cl.calls) : cl'.Presents n p where
  create := h.create.trans hcreate.symm
  presented := h.presented
  stages := h.stages
  registrations := by
    rw [Client.registrations, hcalls]
    exact h.registrations
  opened := hcalls ▸ h.opened
  settled := hcalls ▸ h.settled

/-- An event of the screen. -/
theorem Presents.screen (h : cl.Presents n p) {e : CreateChatController.Event}
    {create : CreateChatController} (he : Presentation.isTapOrReset e = false)
    (hcreate : cl.create.step names.sameName e = some create) :
    p.step names.sameName (.screen e) = some { p with create } ∧
      Presents n { cl with create } { p with create } := by
  refine ⟨?_, ⟨rfl, h.presented, h.stages, h.registrations, h.opened, h.settled⟩⟩
  simp only [Presentation.step, h.presented, he, h.create, hcreate]
  rfl

/-- The start of an upload leaves the earlier ones alone. -/
theorem Presents.appended (h : cl.Presents n p) {call : Call}
    (hcalls : cl'.calls = cl.calls ++ [call]) :
    cl'.registrations n = cl.registrations n ++ [call].filter Call.isConversation ∧
      n ≤ cl'.calls.length ∧
      ∀ (k : ℕ) (call' : Call), k < n → cl'.calls[k]? = some call' →
        call'.isConversation = true → call'.program.pending = false := by
  refine ⟨?_, ?_, fun k call' hk hcall' => ?_⟩
  · rw [Client.registrations, hcalls, List.drop_append_of_le_length h.opened, List.filter_append]
    rfl
  · rw [hcalls, List.length_append]
    exact Nat.le_trans h.opened (Nat.le_add_right _ _)
  · rw [hcalls, List.getElem?_append_left (Nat.lt_of_lt_of_le hk h.opened)] at hcall'
    exact h.settled k call' hk hcall'

/-- The start of an upload of a registration screen. -/
theorem Presents.start (h : cl.Presents n p) {call : Call} (hcall : call.isConversation = false)
    (hcreate : cl'.create = cl.create) (hcalls : cl'.calls = cl.calls ++ [call]) :
    cl'.Presents n p := by
  obtain ⟨hregistrations, hopened, hsettled⟩ := h.appended hcalls
  refine ⟨h.create.trans hcreate.symm, h.presented, h.stages, ?_, hopened, hsettled⟩
  rw [hregistrations, List.filter_singleton, hcall, cond_false, List.append_nil]
  exact h.registrations

/-- A register tap. -/
theorem Presents.tap (h : cl.Presents n p) {now : Timestamp}
    (hvisible : cl.create.registerButtonHidden = false) :
    ∃ p', p.step names.sameName
        (.didTapRegisterButton (cl.moment names client cl.calls.length 0 now)) = some p' ∧
      p'.written = p.written ∧
      ({ cl with create := cl.create.didTapRegisterButton.1 }.startCall names client .conversation
        ((fun _ => .conversation) <$> cl.create.didTapRegisterButton.2) now).Presents n p' := by
  refine ⟨{ p with
    create := cl.create.didTapRegisterButton.1
    registrations := p.registrations ++ [cl.create.didTapRegisterButton.2.run
      (cl.moment names client cl.calls.length 0 now)] }, ?_, rfl, rfl, h.presented, fun q hq => ?_,
    ?_, (h.appended rfl).2.1, (h.appended rfl).2.2⟩
  · simp only [Presentation.step, h.presented, h.create, hvisible]
    rfl
  · obtain hold | hnew := List.mem_append.1 hq
    · exact h.stages q hold
    · rw [List.mem_singleton.1 hnew, CreateChatController.didTapRegisterButton_run]
      exact .animating cl.create
  · refine (congrArg (List.map Call.program) (h.appended rfl).1).trans ?_
    rw [List.map_append, List.map_append]
    exact congrArg₂ _ h.registrations rfl

/-- An answer to the upload of a registration screen. -/
theorem Presents.setOther (h : cl.Presents n p) {k : ℕ} {call call' : Call}
    (hcall : cl.calls[k]? = some call) (horigin : call.isConversation = false)
    (horigin' : call'.isConversation = false) (hcreate : cl'.create = cl.create)
    (hcalls : cl'.calls = cl.calls.set k call') : cl'.Presents n p := by
  refine ⟨h.create.trans hcreate.symm, h.presented, h.stages, ?_, ?_, fun k' call'' hk' hcall'' =>
    ?_⟩
  · rw [Client.registrations, hcalls, List.drop_set]
    split_ifs with hk
    · exact h.registrations
    · have hget := getElem?_drop_sub (Nat.le_of_not_lt hk) hcall
      rw [filter_set_of_not hget horigin horigin']
      exact h.registrations
  · rw [hcalls, List.length_set]
    exact h.opened
  · rw [hcalls] at hcall''
    obtain ⟨rfl, rfl⟩ | ⟨-, hold⟩ := getElem?_set_cases hcall''
    · exact fun hconversation => absurd (horigin'.symm.trans hconversation) Bool.noConfusion
    · exact h.settled k' call'' hk' hold

/-- The registration that an upload waiting for an answer is. -/
theorem Presents.registration (h : cl.Presents n p) {k : ℕ} {call : Call}
    (hcall : cl.calls[k]? = some call) (horigin : call.isConversation = true)
    (hpending : call.program.pending = true) :
    n ≤ k ∧ ∃ q, p.registrations[cl.registrationNumber n k]? = some q ∧
      Presentation.Stage q ∧ asCompletion q = call.program := by
  have hk : n ≤ k := by
    by_contra hlt
    have hnot := h.settled k call (Nat.lt_of_not_le hlt) hcall horigin
    exact absurd (hpending.symm.trans hnot) Bool.noConfusion
  have hnumber : (cl.registrations n)[cl.registrationNumber n k]? = some call :=
    filter_getElem? (getElem?_drop_sub hk hcall) horigin
  have hprogram : (p.registrations.map asCompletion)[cl.registrationNumber n k]? =
      some call.program := by
    rw [← h.registrations, List.getElem?_map, hnumber]
    rfl
  rw [List.getElem?_map] at hprogram
  obtain ⟨q, hq, hsame⟩ := Option.map_eq_some_iff.1 hprogram
  exact ⟨hk, q, hq, h.stages q (List.mem_of_getElem? hq), hsame⟩

/-- An answer to a registration. -/
theorem Presents.setRegistration (h : cl.Presents n p) (written : List Document) (fetches : ℕ)
    {k : ℕ} {call call' : Call} {q : Running Unit} (hk : n ≤ k) (hcall : cl.calls[k]? = some call)
    (horigin : call.isConversation = true) (horigin' : call'.isConversation = true)
    (hq : Presentation.Stage q) (hprogram : call'.program = asCompletion q)
    (hcreate : cl'.create = cl.create) (hcalls : cl'.calls = cl.calls.set k call') :
    cl'.Presents n { p with
      registrations := p.registrations.set (cl.registrationNumber n k) q, written, fetches } := by
  refine ⟨h.create.trans hcreate.symm, h.presented, fun q' hq' => ?_, ?_, ?_,
    fun k' call'' hk' hcall'' => ?_⟩
  · obtain hold | rfl := List.mem_or_eq_of_mem_set hq'
    · exact h.stages q' hold
    · exact hq
  · have hget := getElem?_drop_sub hk hcall
    rw [Client.registrations, hcalls, List.drop_set, if_neg (Nat.not_lt.2 hk),
      filter_set hget horigin horigin', List.map_set, List.map_set, hprogram]
    exact congrArg (List.set · _ _) h.registrations
  · rw [hcalls, List.length_set]
    exact h.opened
  · rw [hcalls, List.getElem?_set_ne (by omega)] at hcall''
    exact h.settled k' call'' hk' hcall''

/-- The completion of a registration leaves the client alone. -/
theorem runCompletion_of_conversation {call : Call} (h : call.isConversation = true) :
    cl.runCompletion names call = cl := by
  have horigin : call.origin = .conversation := of_decide_eq_true h
  unfold runCompletion complete
  rw [horigin]
  split <;> rfl

/-- An answer to a registration, which writes nothing or its document. -/
theorem Presents.answerRegistration (h : cl.Presents n p) {k : ℕ} {o : Outcome} {call : Call}
    (hcall : cl.calls[k]? = some call) (horigin : call.isConversation = true)
    (hb : b.Consistent names False False) (hinv : ClientInv names False False client b cl)
    (hstep : cl.answer names client b k o = some (b', cl')) :
    ∃ p', p.step names.sameName (.answer (cl.registrationNumber n k) o.ok
        (cl.moment names client k (call.callbacks + 1) o.now)) = some p' ∧
      cl'.Presents n p' ∧ Adds names client b b' p.written p'.written := by
  obtain ⟨call₀, r, next, reply, hcall₀, hprogram, hperform, call', hcall', rfl⟩ :=
    answer_cases hstep
  obtain rfl := Option.some.inj (hcall.symm.trans hcall₀)
  obtain ⟨hk, q, hq, hstage, hsame⟩ :=
    h.registration hcall horigin (by rw [hprogram]; rfl)
  rw [hprogram] at hsame
  have horigin' : call'.isConversation = true := by
    rw [hcall']
    exact horigin
  rw [runCompletion_of_conversation horigin']
  have hdemands := (hinv.calls k call hcall).demands hb hprogram
  have hopen := h.presented
  cases hstage with
  | animating c =>
    obtain ⟨rfl, hnext⟩ := Async.call.inj hsame
    obtain rfl := eq_of_heq hnext
    obtain ⟨rfl, rfl⟩ := Backend.perform_animate hperform
    refine ⟨_, ?_, h.setRegistration p.written p.fetches hk hcall horigin
      horigin' (.writing c (p.create, cl.moment names client k (call.callbacks + 1) o.now)) ?_ rfl
      rfl, .none rfl⟩
    · simp only [Presentation.step, hopen, Presentation.answer, hq]
      rfl
    · rw [hcall', h.create]
      rfl
  | writing c first =>
    obtain ⟨rfl, hnext⟩ := Async.call.inj hsame
    obtain rfl := eq_of_heq hnext
    cases hok : o.ok with
    | true =>
      rw [Backend.perform, if_pos hok] at hperform
      obtain ⟨rfl, rfl⟩ := Prod.mk.inj (Option.some.inj hperform)
      refine ⟨_, ?_, h.setRegistration _ (p.fetches + 1) hk hcall horigin horigin'
        (.stored (cl.moment names client k (call.callbacks + 1) o.now)) ?_ rfl rfl,
        .setData hdemands⟩
      · simp only [Presentation.step, hopen, Presentation.answer, hq]
        rfl
      · rw [hcall']
        rfl
    | false =>
      rw [Backend.perform, if_neg (Bool.eq_false_iff.1 hok)] at hperform
      obtain ⟨rfl, rfl⟩ := Prod.mk.inj (Option.some.inj hperform)
      refine ⟨_, ?_, h.setRegistration p.written p.fetches hk hcall horigin
        horigin' .failed ?_ rfl rfl, .none rfl⟩
      · simp only [Presentation.step, hopen, Presentation.answer, hq]
        rfl
      · rw [hcall']
        rfl
  | failed => cases hsame
  | stored m => cases hsame

/-! ## One event of the client -/

/-- The reset, which ends a presentation. -/
def Event.isReset : Event → Bool
  | .defaultUI _ => true
  | _ => false

/-- The completion of an upload is no tap and no reset. -/
theorem completionEvent_isTapOrReset {call : Call} {e : CreateChatController.Event}
    (h : cl.completionEvent call = some e) : Presentation.isTapOrReset e = false := by
  unfold completionEvent at h
  split at h
  · split at h
    · obtain rfl := Option.some.inj h
      rfl
    · split at h
      · obtain rfl := Option.some.inj h
        rfl
      · cases h
    · cases h
  · cases h

/-- The events of the create screen between the register taps and the resets. -/
theorem createEvent_isTapOrReset {e : Event} {e' : CreateChatController.Event}
    (htap : ∀ now, e ≠ .didTapRegisterButton now) (hreset : e.isReset = false)
    (h : cl.createEvent names url client b e = some e') : Presentation.isTapOrReset e' = false := by
  cases e with
  | didTapRegisterButton now => exact absurd rfl (htap now)
  | defaultUI onScreen => cases hreset
  | answer k o =>
    obtain ⟨⟨b₁, cl₁⟩, -, hcall⟩ := Option.bind_eq_some_iff.1 h
    obtain ⟨call, -, hcompletion⟩ := Option.bind_eq_some_iff.1 hcall
    exact completionEvent_isTapOrReset hcompletion
  | selectCharacter cell =>
    obtain ⟨character, -, rfl⟩ := Option.map_eq_some_iff.1 h
    rfl
  | fetchCharacters found now | fetchDialogues found now | didSelectRow row | editTitle text
  | showKeyboard height =>
    obtain rfl := Option.some.inj h
    rfl
  | _ => cases h

/-- An event of the screen, or none. -/
theorem Presents.screenEvents (h : cl.Presents n p) {event : Option CreateChatController.Event}
    {create : CreateChatController}
    (hno : ∀ e, event = some e → Presentation.isTapOrReset e = false)
    (hcreate : run (CreateChatController.step names.sameName) cl.create event.toList = some create) :
    ∃ p', run (Presentation.step names.sameName) p (event.map .screen).toList = some p' ∧
      p'.written = p.written ∧
      Presents n { cl with create } p' := by
  cases event with
  | none =>
    obtain rfl := Option.some.inj hcreate
    exact ⟨p, rfl, rfl, h⟩
  | some e =>
    obtain ⟨create', hstep, hnil⟩ := run_cons_eq_some.1 hcreate
    obtain rfl := Option.some.inj hnil
    obtain ⟨hpresentation, hpresents⟩ := h.screen (hno e rfl) hstep
    exact ⟨_, run_cons_eq_some.2 ⟨_, hpresentation, rfl⟩, rfl, hpresents⟩

/-- One event of the client is an event of the presentation, or leaves it alone. -/
theorem Presents.step (h : cl.Presents n p) (hquiet : cl.OthersQuiet)
    (hb : b.Consistent names False False) (hinv : ClientInv names False False client b cl)
    {e : Event} (hreset : e.isReset = false)
    (hstep : cl.step names url client b e = some (b', cl')) :
    ∃ p', run (Presentation.step names.sameName) p
        (cl.presentationEvent names url client n b e).toList = some p' ∧
      cl'.Presents n p' ∧ Adds names client b b' p.written p'.written := by
  have hcreate := step_createEvent hstep
  -- an event that is one of the screen for the presentation
  have hscreen : (∀ now, e ≠ .didTapRegisterButton now) →
      cl.presentationEvent names url client n b e =
        (cl.createEvent names url client b e).map .screen →
      b'.conversations = b.conversations →
      (∀ p', Presents n { cl with create := cl'.create } p' → cl'.Presents n p') →
      ∃ p', run (Presentation.step names.sameName) p
        (cl.presentationEvent names url client n b e).toList = some p' ∧
        cl'.Presents n p' ∧ Adds names client b b' p.written p'.written := by
    intro htap hevent hconversations hlater
    obtain ⟨p', hrun, hwritten, hpresents⟩ := h.screenEvents
      (fun e' he' => createEvent_isTapOrReset htap hreset he') hcreate
    rw [hevent]
    refine ⟨p', hrun, hlater p' hpresents, ?_⟩
    rw [hwritten]
    exact .none hconversations
  cases step_cases hstep with
  | @screen e e' create he _ =>
    have hevent : cl.presentationEvent names url client n b e =
        (cl.createEvent names url client b e).map .screen := by
      cases e <;> first | rfl | cases he
    exact hscreen (fun now heq => by subst heq; cases he) hevent rfl
      fun p' hp' => hp'.same rfl rfl
  | registerConversation hvisible =>
    obtain ⟨p', hp', hwritten, hpresents⟩ := h.tap hvisible
    refine ⟨p', run_cons_eq_some.2 ⟨p', hp', rfl⟩, hpresents, ?_⟩
    rw [hwritten]
    exact .none rfl
  | registerCharacter | registerDialogue =>
    exact hscreen nofun rfl rfl fun p' hp' => hp'.start rfl rfl rfl
  | @answer k o _ _ hanswer =>
    obtain ⟨call, r, next, reply, hcall, hprogram, hperform, call', hcall', hcl'⟩ :=
      answer_cases hanswer
    cases horigin : call.isConversation with
    | true =>
      have hevent : cl.presentationEvent names url client n b (.answer k o) =
          some (.answer (cl.registrationNumber n k) o.ok
            (cl.moment names client k (call.callbacks + 1) o.now)) := by
        simp only [presentationEvent, hcall, horigin, if_true]
      obtain ⟨p', hp', hpresents, hadds⟩ := h.answerRegistration hcall horigin hb hinv hanswer
      rw [hevent]
      exact ⟨p', run_cons_eq_some.2 ⟨p', hp', rfl⟩, hpresents, hadds⟩
    | false =>
      have hevent : cl.presentationEvent names url client n b (.answer k o) =
          (cl.createEvent names url client b (.answer k o)).map .screen := by
        simp only [presentationEvent, hcall, horigin, Bool.false_eq_true, if_false]
      have honly := hquiet call (List.mem_of_getElem? hcall) horigin
      rw [hprogram] at honly
      have horigin' : call'.isConversation = false := by
        rw [hcall']
        exact horigin
      refine hscreen nofun hevent (perform_noConversation honly.1 hperform) fun p' hp' => ?_
      exact hp'.setOther hcall horigin horigin' rfl (by rw [hcl', runCompletion_calls])
  | _ => exact hscreen nofun rfl rfl fun p' hp' => hp'.same rfl rfl

/-- The uploads of registration screens write no conversation after a step either. -/
theorem OthersQuiet.step {e : Event} (h : cl.OthersQuiet)
    (hstep : cl.step names url client b e = some (b', cl')) : cl'.OthersQuiet := by
  refine step_forall_calls (P := fun call => call.isConversation = false →
    call.program.Only NoConversation) (fun _ _ _ _ => Chain.only_map uploadCharacter_noConversation)
    (fun _ _ _ _ => Chain.only_map uploadDialogue_noConversation)
    (fun _ _ horigin => absurd horigin nofun)
    (fun call r next reply m sounds hcall hprogram => ?_) h hstep
  intro horigin
  have honly := hcall horigin
  rw [hprogram] at honly
  exact honly.2 (reply, m)

/-! ## Taps after failures -/

/-- A register tap is made only when every registration from the `n`-th upload on has failed. -/
def TapsAfterFailure (n : ℕ) (cl : Client) : Event → Prop
  | .didTapRegisterButton _ => ∀ call ∈ cl.registrations n, call.program = .stop
  | _ => True

theorem presentationEvent_tap {e : Event} {m : Moment}
    (h : cl.presentationEvent names url client n b e = some (.didTapRegisterButton m)) :
    ∃ now, e = .didTapRegisterButton now := by
  cases e with
  | didTapRegisterButton now => exact ⟨now, rfl⟩
  | answer k o =>
    simp only [presentationEvent] at h
    split at h
    · split_ifs at h
      · cases h
      · obtain ⟨_, -, heq⟩ := Option.map_eq_some_iff.1 h
        cases heq
    · cases h
  | _ =>
    simp only [presentationEvent] at h
    obtain ⟨_, -, heq⟩ := Option.map_eq_some_iff.1 h
    cases heq

/-- So it is for the presentation. -/
theorem Presents.tapsAfterFailure (h : cl.Presents n p) {e : Event} (he : cl.TapsAfterFailure n e)
    {e' : Presentation.Event} (he' : cl.presentationEvent names url client n b e = some e') :
    p.TapsAfterFailure e' := by
  cases e' with
  | didTapRegisterButton m =>
    obtain ⟨now, rfl⟩ := presentationEvent_tap he'
    intro q hq
    have hmem : asCompletion q ∈ (cl.registrations n).map Call.program := by
      rw [h.registrations]
      exact List.mem_map_of_mem hq
    obtain ⟨call, hcall, hsame⟩ := List.mem_map.1 hmem
    rw [he call hcall] at hsame
    cases q with
    | stop => rfl
    | _ => cases hsame
  | _ => trivial

end Client

/-! ## Every run -/

namespace World

open Client

variable {names : Names} {url : URLParser} {disks : ℕ → Disk} {client n : ℕ}
  {b₀ : Backend} {w w' : World} {p : Presentation}

/-- What an event of the world is for the presentation that the client opened before its `n`-th
upload. -/
def presentationEvent (names : Names) (url : URLParser) (client n : ℕ) (w : World)
    (e : ℕ × Client.Event) : List Presentation.Event :=
  if e.1 = client then ((w.parts client).presentationEvent names url client n w.shared e.2).toList
  else []

/-- What a run of the world is for a presentation that the client opens at its beginning. -/
def presentationEvents (names : Names) (url : URLParser) (client : ℕ) (w : World)
    (es : List (ℕ × Client.Event)) : List Presentation.Event :=
  trace (step names url) (presentationEvent names url client (w.parts client).calls.length) w es

/-- No reset of the client's create screen. -/
def NoReset (client : ℕ) (e : ℕ × Client.Event) : Prop := e.1 = client → e.2.isReset = false

/-- A register tap of the client is made only when its registrations from the `n`-th upload on have
failed. -/
def TapsAfterFailure (client n : ℕ) (w : World) (e : ℕ × Client.Event) : Prop :=
  e.1 = client → (w.parts client).TapsAfterFailure n e.2

open Classical in
/-- The documents of the client. -/
noncomputable def documentsOf (names : Names) (client : ℕ) (l : List Document) : List Document :=
  l.filter fun d => names.OfClient client d

theorem documentsOf_append_own {l added : List Document}
    (h : ∀ d ∈ added, names.OfClient client d) :
    documentsOf names client (l ++ added) = documentsOf names client l ++ added := by
  simp only [documentsOf, List.filter_append]
  refine congrArg _ (List.filter_eq_self.2 fun d hd => ?_)
  simpa using h d hd

theorem documentsOf_append_other {client' : ℕ} {l added : List Document} (hne : client' ≠ client)
    (h : ∀ d ∈ added, names.OfClient client' d) :
    documentsOf names client (l ++ added) = documentsOf names client l := by
  simp only [documentsOf, List.filter_append]
  refine List.append_right_eq_self.2 (List.filter_eq_nil_iff.2 fun d hd => ?_)
  simpa using fun hown => hne ((h d hd).unique hown)

/-- The client shows the presentation, which has written the client's documents among those added to
the conversations of `b₀`. -/
structure Presenting (names : Names) (client n : ℕ) (b₀ : Backend) (w : World) (p : Presentation) :
    Prop where
  inv : w.Inv names False False
  others : (w.parts client).OthersQuiet
  presents : (w.parts client).Presents n p
  added : ∃ added, w.shared.conversations = b₀.conversations ++ added ∧
    p.written = documentsOf names client added

theorem step_presenting {e : ℕ × Client.Event} (h : Presenting names client n b₀ w p)
    (hreset : NoReset client e) (hstep : step names url w e = some w') :
    ∃ p', Runs.run (Presentation.step names.sameName) p
        (presentationEvent names url client n w e) = some p' ∧
      Presenting names client n b₀ w' p' := by
  have hinv := step_inv_false w e w' h.inv hstep
  obtain ⟨added, hadded, hwritten⟩ := h.added
  obtain ⟨client', e⟩ := e
  obtain ⟨hclient, hparts⟩ := Shared.advance_eq_some hstep
  by_cases hsame : client' = client
  · subst hsame
    obtain ⟨p', hp', hpresents, more, hmore, hwritten', hown⟩ :=
      h.presents.step h.others h.inv.1 (h.inv.2 client') (hreset rfl) hclient
    rw [presentationEvent, if_pos rfl]
    refine ⟨p', hp', hinv, h.others.step hclient, hpresents, added ++ more, ?_, ?_⟩
    · rw [hmore, hadded, List.append_assoc]
    · rw [documentsOf_append_own hown, hwritten', hwritten]
  · obtain ⟨more, hmore, hown⟩ :=
      step_conversations_added h.inv.1 (h.inv.2 client') hclient
    rw [presentationEvent, if_neg hsame]
    have hpart := hparts client (Ne.symm hsame)
    refine ⟨p, rfl, hinv, ?_, ?_, added ++ more, ?_, ?_⟩
    · rw [hpart]
      exact h.others
    · rw [hpart]
      exact h.presents
    · rw [hmore, hadded, List.append_assoc]
    · rw [documentsOf_append_other hsame hown, hwritten]

theorem run_othersQuiet {es : List (ℕ × Client.Event)}
    (hrun : run names url (init disks) es = some w) (client : ℕ) :
    (w.parts client).OthersQuiet := by
  refine run_invariant (I := fun w : World => (w.parts client).OthersQuiet)
    (fun w e w' h hstep => ?_) (fun _ hcall => absurd hcall List.not_mem_nil) hrun
  obtain ⟨client', e⟩ := e
  obtain ⟨hclient, hparts⟩ := Shared.advance_eq_some hstep
  by_cases hsame : client' = client
  · subst hsame
    exact h.step hclient
  · rw [hparts client (Ne.symm hsame)]
    exact h

/-- No conversation of the client is on its way. -/
def NoConversationPending (client : ℕ) (w : World) : Prop :=
  ∀ call ∈ (w.parts client).calls, call.isConversation = true → call.program.pending = false

theorem presenting_new {es : List (ℕ × Client.Event)}
    (hrun : run names url (init disks) es = some w)
    (hidle : w.NoConversationPending client) :
    Presenting names client (w.parts client).calls.length w.shared w
      (.new (w.parts client).create) where
  inv := run_inv_false hrun
  others := run_othersQuiet hrun client
  presents := presents_new hidle
  added := ⟨[], (List.append_nil _).symm, rfl⟩

/-- From a state with no conversation of the client on its way up to the client's next reset, a run
is a run of `Presentation` for its create screen and the uploads of its register button, whatever
other uploads and other clients do in between.  What the presentation has written are the client's
documents among the conversations added since. -/
theorem presentationOnClient (es₀ es : List (ℕ × Client.Event)) (w₀ w : World) (client : ℕ)
    (hrun₀ : run names url (init disks) es₀ = some w₀)
    (hidle : w₀.NoConversationPending client) (hreset : ∀ e ∈ es, NoReset client e)
    (hrun : run names url w₀ es = some w) :
    ∃ p added, Runs.run (Presentation.step names.sameName) (.new (w₀.parts client).create)
        (presentationEvents names url client w₀ es) = some p ∧
      p.create = (w.parts client).create ∧
      p.registrations.map asCompletion =
        ((w.parts client).registrations (w₀.parts client).calls.length).map Call.program ∧
      w.shared.conversations = w₀.shared.conversations ++ added ∧
      p.written = documentsOf names client added := by
  obtain ⟨p, hp, hpresenting⟩ := run_simulates_of_allSteps
    (fun w p e w' h hok hstep => step_presenting h hok hstep) (presenting_new hrun₀ hidle)
    (allSteps_of_forall fun e he _ => hreset e he) hrun
  obtain ⟨added, hadded, hwritten⟩ := hpresenting.added
  exact ⟨p, added, hp, hpresenting.presents.create, hpresenting.presents.registrations.symm, hadded,
    hwritten⟩

theorem noConversationPending_of_idle (h : w.idle client = true) :
    w.NoConversationPending client := by
  intro call hcall _
  have hnone := List.all_eq_true.1 h call hcall
  cases hprogram : call.program with
  | call r next =>
    rw [hprogram] at hnone
    cases hnone
  | _ => rfl

/-- Another device opens a registration screen and starts an upload while the client's two picked
lines are registered. -/
def registerBeside : List (ℕ × Client.Event) :=
  [(0, .didTapRegisterButton 0), (1, .showRegisterViewController), (0, .answer 1 (success "" [])),
   (1, .register 0 0), (0, .editTitle "title"), (0, .answer 1 (success "" []))]

theorem presentationOnClient_sample :
    ∃ w₀ w, run Names.letters URLParser.nonempty (init fun _ => .new "documents")
        (registerCharacter ++ [pick, pick]) = some w₀ ∧
      run Names.letters URLParser.nonempty w₀ registerBeside = some w ∧
      w.shared.conversations.length = 1 ∧
      ∃ p added, Runs.run (Presentation.step (· == ·)) (.new (w₀.parts 0).create)
          (presentationEvents Names.letters URLParser.nonempty 0 w₀ registerBeside) = some p ∧
        p.create = (w.parts 0).create ∧
        p.registrations.map asCompletion =
          ((w.parts 0).registrations (w₀.parts 0).calls.length).map Call.program ∧
        w.shared.conversations = w₀.shared.conversations ++ added ∧
        p.written = documentsOf Names.letters 0 added := by
  have hruns : ∃ w₀, run Names.letters URLParser.nonempty (init fun _ => .new "documents")
      (registerCharacter ++ [pick, pick]) = some w₀ ∧ w₀.idle 0 = true ∧
      ∃ w, run Names.letters URLParser.nonempty w₀ registerBeside = some w ∧
        w.shared.conversations.length = 1 := ⟨_, rfl, rfl, _, rfl, rfl⟩
  obtain ⟨w₀, hrun₀, hidle, w, hrun, hone⟩ := hruns
  have hnone : registerBeside.all (fun e => !e.2.isReset) = true := rfl
  refine ⟨w₀, w, hrun₀, hrun, hone, presentationOnClient _ _ w₀ w 0 hrun₀
    (noConversationPending_of_idle hidle) (fun e he _ => ?_) hrun⟩
  simpa using List.all_eq_true.1 hnone e he

/-! ## One conversation -/

theorem Presenting.tapsAfterFailure {e : ℕ × Client.Event} (h : Presenting names client n b₀ w p)
    (he : w.TapsAfterFailure client n e) :
    AllSteps (Presentation.step names.sameName) Presentation.TapsAfterFailure p
      (presentationEvent names url client n w e) := by
  unfold presentationEvent
  split_ifs with hsame
  · cases hevent : (w.parts client).presentationEvent names url client n w.shared e.2 with
    | none => trivial
    | some e' => exact fun _ _ => ⟨h.presents.tapsAfterFailure (he hsame) hevent, trivial⟩
  · trivial

/-- From a state with no conversation of the client on its way up to the client's next reset, where
each register tap of the client is made only when its earlier ones since that state have failed, the
client adds one conversation at most, whatever other uploads and other clients do in between. -/
theorem addsOneConversation (es₀ es : List (ℕ × Client.Event)) (w₀ w : World) (client : ℕ)
    (hrun₀ : run names url (init disks) es₀ = some w₀)
    (hidle : w₀.NoConversationPending client) (hreset : ∀ e ∈ es, NoReset client e)
    (htaps : AllSteps (step names url)
      (TapsAfterFailure client (w₀.parts client).calls.length) w₀ es)
    (hrun : run names url w₀ es = some w) :
    ∃ added, w.shared.conversations = w₀.shared.conversations ++ added ∧
      (documentsOf names client added).length ≤ 1 := by
  have hsteps : AllSteps (step names url) (fun w e => NoReset client e ∧
      w.TapsAfterFailure client (w₀.parts client).calls.length e) w₀ es :=
    (allSteps_of_forall fun e he _ => hreset e he).and htaps
  obtain ⟨p, -, hpresenting, hwritten, hactive⟩ := run_simulates_of_allSteps
    (R := fun w p => Presenting names client (w₀.parts client).calls.length w₀.shared w p ∧
      p.Written ∧ p.OneActive)
    (fun w p e w' h hok hstep => by
      obtain ⟨p', hp', hpresenting⟩ := step_presenting h.1 hok.1 hstep
      have htap : AllSteps (Presentation.step names.sameName) Presentation.TapsAfterFailure p
          (presentationEvent names url client (w₀.parts client).calls.length w e) :=
        h.1.tapsAfterFailure hok.2
      exact ⟨p', hp', hpresenting,
        run_invariant_of_allSteps (I := fun p => p.Written ∧ p.OneActive)
          (fun p e p' hp hok hstep => ⟨Presentation.step_written p e p' hp.1 hstep,
            Presentation.step_oneActive p e p' hp.1 hp.2 hok hstep⟩) h.2 htap hp'⟩)
    ⟨presenting_new hrun₀ hidle, Presentation.written_new _, List.Pairwise.nil⟩ hsteps hrun
  obtain ⟨added, hadded, hdocuments⟩ := hpresenting.added
  refine ⟨added, hadded, ?_⟩
  rw [← hdocuments, hwritten.count]
  exact Presentation.countP_stored_le_one hactive

/-- A register tap after failures, and no other. -/
theorem tapsAfterFailure_cons {now : Timestamp} {es : List (ℕ × Client.Event)}
    (htap : ∀ call ∈ (w.parts client).registrations n, call.program = .stop)
    (hes : ∀ e ∈ es, ∀ now, e.2 ≠ .didTapRegisterButton now) :
    AllSteps (step names url) (TapsAfterFailure client n) w
      ((client, .didTapRegisterButton now) :: es) := by
  refine fun t _ => ⟨fun _ => htap, allSteps_of_forall fun e he s _ => ?_⟩
  cases hevent : e.2 with
  | didTapRegisterButton now => exact absurd hevent (hes e he now)
  | _ => trivial

/-- A registration whose write fails. -/
def failToRegister : List (ℕ × Client.Event) :=
  [(0, .didTapRegisterButton 0), (0, .answer 1 (success "" [])), (0, .answer 1 ⟨false, "", [], 0⟩)]

/-- The next one. -/
def registerAgain : List (ℕ × Client.Event) :=
  [(0, .didTapRegisterButton 0), (1, .showRegisterViewController), (0, .answer 2 (success "" [])),
   (0, .answer 2 (success "" []))]

theorem addsOneConversation_sample :
    ∃ w₀ w, run Names.letters URLParser.nonempty (init fun _ => .new "documents")
        (registerCharacter ++ [pick, pick]) = some w₀ ∧
      run Names.letters URLParser.nonempty w₀ (failToRegister ++ registerAgain) = some w ∧
      w.shared.conversations.length = 1 ∧
      ∃ added, w.shared.conversations = w₀.shared.conversations ++ added ∧
        (documentsOf Names.letters 0 added).length ≤ 1 := by
  have hruns : ∃ w₀, run Names.letters URLParser.nonempty (init fun _ => .new "documents")
      (registerCharacter ++ [pick, pick]) = some w₀ ∧ w₀.idle 0 = true ∧
      (∃ w₁, run Names.letters URLParser.nonempty w₀ failToRegister = some w₁ ∧
        ((w₁.parts 0).registrations (w₀.parts 0).calls.length).map Call.program = [.stop]) ∧
      ∃ w, run Names.letters URLParser.nonempty w₀ (failToRegister ++ registerAgain) = some w ∧
        w.shared.conversations.length = 1 := ⟨_, rfl, rfl, ⟨_, rfl, rfl⟩, _, rfl, rfl⟩
  obtain ⟨w₀, hrun₀, hidle, ⟨w₁, hrun₁, hstop⟩, w, hrun, hone⟩ := hruns
  have hnone : (failToRegister ++ registerAgain).all (fun e => !e.2.isReset) = true := rfl
  refine ⟨w₀, w, hrun₀, hrun, hone, addsOneConversation _ _ w₀ w 0 hrun₀
    (noConversationPending_of_idle hidle) (fun e he _ => ?_)
    (allSteps_append.2 ⟨tapsAfterFailure_cons ?_ ?_, fun t ht => ?_⟩) hrun⟩
  · simpa using List.all_eq_true.1 hnone e he
  · rw [Client.registrations, List.drop_length]
    exact fun _ hcall => absurd hcall List.not_mem_nil
  · simp
  · obtain rfl : t = w₁ := Option.some.inj (ht.symm.trans hrun₁)
    refine tapsAfterFailure_cons (fun call hcall => ?_) (by simp)
    have hmem := List.mem_map_of_mem (f := Call.program) hcall
    rw [hstop] at hmem
    exact List.mem_singleton.1 hmem

end World

end DialogueApp
