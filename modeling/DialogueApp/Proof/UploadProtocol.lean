import DialogueApp.Proof.CopiedData
import DialogueApp.Lib.Protocol
import Mathlib.Algebra.BigOperators.Group.List.Basic

/-!
# The protocol of an upload

Which requests each kind of upload sends, in which order, and how many.  In every reachable state of
the world an upload waits for the request that its protocol has at the number of answers it has got,
and it has called its completion exactly when the protocol is through.  So the touches of a run bound
the number of its answers.
-/

namespace DialogueApp

open Program CharacterService DialogueService Runs

/-- What a request asks for. -/
inductive RequestKind
  | animate
  | putData
  | putFile
  | downloadURL
  | setData (collection : Collection)
  | getDocuments (collection : Collection)
  deriving DecidableEq, Repr

/-- The kind of a request. -/
def Request.kind : Request → RequestKind
  | .animate => .animate
  | .putData _ _ => .putData
  | .putFile _ _ => .putFile
  | .downloadURL _ => .downloadURL
  | .setData collection _ _ => .setData collection
  | .getDocuments collection => .getDocuments collection

namespace Origin

/-- The requests of an upload that goes through. -/
def protocol : Origin → List RequestKind
  | .character _ =>
    [.putData, .downloadURL, .putFile, .downloadURL, .setData .characters, .setData .dialogues,
      .getDocuments .characters, .getDocuments .dialogues]
  | .dialogue _ => [.putFile, .downloadURL, .setData .dialogues, .getDocuments .dialogues]
  | .conversation => [.animate, .setData .conversations]

end Origin

/-! ## The three programs -/

section

variable {m : Moment}

theorem fistUploadDialogue_follows {item : CharacterItem} :
    ((DataUploader.fistUploadDialogue item).run m).Follows Request.kind
      [.putData, .downloadURL, .putFile, .downloadURL] := by
  unfold DataUploader.fistUploadDialogue
  cases item.image.jpegData with
  | none => trivial
  | some image =>
    refine Chain.follows_read fun filename _ => ?_
    refine Chain.follows_request fun _ _ => ?_
    refine Chain.follows_request fun imageUrl _ => ?_
    cases imageUrl with
    | none => trivial
    | some imageUrl =>
      refine Chain.follows_request fun _ _ => ?_
      refine Chain.follows_request fun audioUrl _ => ?_
      cases audioUrl with
      | none => trivial
      | some audioUrl => rfl

theorem uploadAudio_follows {audio : URL} :
    ((DataUploader.uploadDialogue audio).run m).Follows Request.kind [.putFile, .downloadURL] := by
  unfold DataUploader.uploadDialogue
  refine Chain.follows_read fun filename _ => ?_
  refine Chain.follows_request fun _ _ => ?_
  refine Chain.follows_request fun audioUrl _ => ?_
  cases audioUrl with
  | none => trivial
  | some audioUrl => rfl

theorem fetchDocuments_follows {α : Type} {collection : Collection}
    {decode : Dictionary → Timestamp → α} :
    ((fetchDocuments collection decode).run m).Follows Request.kind
      [.getDocuments collection] := by
  unfold fetchDocuments
  refine Chain.follows_request fun documents _ => ?_
  cases documents with
  | none => trivial
  | some documents => rfl

theorem uploadCharacter_follows {item : CharacterItem} {screen : ℕ} :
    ((uploadCharacter item).run m).Follows Request.kind (Origin.character screen).protocol := by
  unfold uploadCharacter
  refine Chain.follows_read fun _ _ => ?_
  refine Chain.follows_bind fistUploadDialogue_follows fun _ _ => ?_
  refine Chain.follows_read fun _ _ => ?_
  refine Chain.follows_request fun _ _ => ?_
  refine Chain.follows_read fun _ _ => ?_
  refine Chain.follows_read fun _ _ => ?_
  refine Chain.follows_request fun _ _ => ?_
  refine Chain.follows_bind fetchDocuments_follows fun _ _ => ?_
  exact Chain.follows_return fetchDocuments_follows

theorem uploadDialogue_follows {item : DialogueItem} {screen : ℕ} :
    ((uploadDialogue item).run m).Follows Request.kind (Origin.dialogue screen).protocol := by
  unfold uploadDialogue
  refine Chain.follows_read fun _ _ => ?_
  refine Chain.follows_bind uploadAudio_follows fun _ _ => ?_
  refine Chain.follows_read fun _ _ => ?_
  refine Chain.follows_request fun _ _ => ?_
  exact fetchDocuments_follows

theorem didTapRegisterButton_follows (c : CreateChatController) {α : Type} (a : α) :
    (((fun _ => a) <$> c.didTapRegisterButton.2).run m).Follows Request.kind
      Origin.conversation.protocol := by
  refine Chain.follows_map ?_
  rw [CreateChatController.didTapRegisterButton_run]
  refine ⟨_, rfl, fun p => ⟨_, rfl, fun q => ?_⟩⟩
  obtain ⟨_ | _, m'⟩ := q
  · rfl
  · trivial

end

/-! ## One upload -/

namespace Call

/-- The upload has come as far in its protocol as its answers have taken it. -/
def OnProtocol (call : Call) : Prop :=
  ∃ todo, call.program.Follows Request.kind todo ∧
    ∃ done, call.origin.protocol = done ++ todo ∧ done.length = call.callbacks

variable {call : Call}

theorem onProtocol_started {origin : Origin} {program : Running Completion}
    (h : program.Follows Request.kind origin.protocol) :
    OnProtocol { origin, program, callbacks := 0, completions := 0, sounds := [] } :=
  ⟨_, h, [], rfl, rfl⟩

theorem OnProtocol.resume (h : call.OnProtocol) {r : Request}
    {next : Reply r × Moment → Running Completion} (hprogram : call.program = .call r next)
    (reply : Reply r) (m : Moment) (sounds : List Recording) :
    (call.resume (next (reply, m)) sounds).OnProtocol := by
  obtain ⟨todo, hfollows, done, hprotocol, hlength⟩ := h
  rw [hprogram] at hfollows
  obtain ⟨rest, rfl, hrest⟩ := hfollows
  refine ⟨rest, hrest (reply, m), done ++ [r.kind], ?_, ?_⟩
  · rw [List.append_assoc]
    exact hprotocol
  · rw [List.length_append, hlength]
    rfl

theorem OnProtocol.callbacks_le (h : call.OnProtocol) :
    call.callbacks ≤ call.origin.protocol.length := by
  obtain ⟨todo, -, done, hprotocol, hlength⟩ := h
  rw [hprotocol, List.length_append]
  omega

/-- The pending request is the next one of the protocol. -/
theorem OnProtocol.pending (h : call.OnProtocol) {r : Request}
    (hr : call.program.request? = some r) :
    call.origin.protocol[call.callbacks]? = some r.kind := by
  obtain ⟨todo, hfollows, done, hprotocol, hlength⟩ := h
  cases hprogram : call.program with
  | done a => simp [hprogram, Async.request?] at hr
  | stop => simp [hprogram, Async.request?] at hr
  | call r' next =>
    rw [hprogram] at hr hfollows
    obtain rfl : r' = r := Option.some.inj hr
    obtain ⟨rest, rfl, -⟩ := hfollows
    rw [hprotocol, ← hlength]
    simp

/-- The completion is called after the last request. -/
theorem OnProtocol.finished (h : call.OnProtocol) (hdone : call.program.finished = true) :
    call.callbacks = call.origin.protocol.length := by
  obtain ⟨todo, hfollows, done, hprotocol, hlength⟩ := h
  obtain ⟨a, hprogram⟩ := Async.exists_done hdone
  rw [hprogram] at hfollows
  obtain rfl : todo = [] := hfollows
  rw [hprotocol, List.append_nil, hlength]

/-- The answers the upload can still get. -/
def todo (call : Call) : ℕ :=
  if call.program.pending then call.origin.protocol.length - call.callbacks else 0

theorem todo_le : call.todo ≤ call.origin.protocol.length - call.callbacks := by
  unfold todo
  split_ifs
  · exact Nat.le_refl _
  · exact Nat.zero_le _

/-- Each answer is one of them. -/
theorem OnProtocol.todo_resume (h : call.OnProtocol) {r : Request}
    {next : Reply r × Moment → Running Completion} (hprogram : call.program = .call r next)
    (reply : Reply r) (m : Moment) (sounds : List Recording) :
    (call.resume (next (reply, m)) sounds).todo + 1 ≤ call.todo := by
  have hlt : call.callbacks < call.origin.protocol.length := by
    have hnext := h.pending (r := r) (by rw [hprogram]; rfl)
    exact (List.getElem?_eq_some_iff.1 hnext).1
  have hafter : (call.resume (next (reply, m)) sounds).todo ≤
      call.origin.protocol.length - (call.callbacks + 1) := todo_le
  have hbefore : call.todo = call.origin.protocol.length - call.callbacks := by
    rw [todo, hprogram]
    rfl
  omega

end Call

/-! ## Every upload of a client -/

namespace Client

variable {names : Names} {url : URLParser} {client : ℕ} {b b' : Backend} {cl cl' : Client}

/-- What every start of an upload gives and every callback keeps holds of all uploads. -/
theorem step_forall_calls {P : Call → Prop}
    (hcharacter : ∀ screen item m, P
      { origin := .character screen
        program := (.newInfo <$> CharacterService.uploadCharacter item).run m
        callbacks := 0, completions := 0, sounds := [] })
    (hdialogue : ∀ screen item m, P
      { origin := .dialogue screen
        program := (.dialogues <$> DialogueService.uploadDialogue item).run m
        callbacks := 0, completions := 0, sounds := [] })
    (hconversation : cl.create.registerButtonHidden = false → ∀ m, P
      { origin := .conversation
        program := ((fun _ => .conversation) <$> cl.create.didTapRegisterButton.2).run m
        callbacks := 0, completions := 0, sounds := [] })
    (hresume : ∀ call r next reply m sounds, P call → call.program = .call r next →
      P (call.resume (next (reply, m)) sounds))
    {e : Event} (h : ∀ call ∈ cl.calls, P call)
    (hstep : cl.step names url client b e = some (b', cl')) : ∀ call ∈ cl'.calls, P call := by
  have hstart : ∀ call, P call → ∀ call' ∈ cl.calls ++ [call], P call' := by
    intro call hcall call' hcall'
    rcases List.mem_append.1 hcall' with hold | hnew
    · exact h call' hold
    · obtain rfl := List.mem_singleton.1 hnew
      exact hcall
  cases step_cases hstep with
  | registerConversation hvisible => exact hstart _ (hconversation hvisible _)
  | registerCharacter => exact hstart _ (hcharacter _ _ _)
  | registerDialogue => exact hstart _ (hdialogue _ _ _)
  | answer hanswer =>
    obtain ⟨call₀, r, next, reply, hcall₀, hprogram, -, call', rfl, rfl⟩ := answer_cases hanswer
    rw [runCompletion_calls]
    intro call hcall
    rcases List.mem_or_eq_of_mem_set hcall with hold | rfl
    · exact h call hold
    · exact hresume call₀ r next _ _ _ (h call₀ (List.mem_of_getElem? hcall₀)) hprogram
  | _ => exact h

theorem step_onProtocol {e : Event} (h : ∀ call ∈ cl.calls, call.OnProtocol)
    (hstep : cl.step names url client b e = some (b', cl')) :
    ∀ call ∈ cl'.calls, call.OnProtocol :=
  step_forall_calls
    (fun _ _ _ => Call.onProtocol_started (Chain.follows_map uploadCharacter_follows))
    (fun _ _ _ => Call.onProtocol_started (Chain.follows_map uploadDialogue_follows))
    (fun _ _ => Call.onProtocol_started (didTapRegisterButton_follows cl.create _))
    (fun _ _ _ reply m sounds hcall hprogram => hcall.resume hprogram reply m sounds) h hstep

/-- An upload that a step starts has run no callback. -/
theorem step_started_callbacks {e : Event} {k : ℕ} {call : Call}
    (hstep : cl.step names url client b e = some (b', cl')) (hnone : cl.calls[k]? = none)
    (hcall : cl'.calls[k]? = some call) : call.callbacks = 0 := by
  have hstart : ∀ new : Call, new.callbacks = 0 → (cl.calls ++ [new])[k]? = some call →
      call.callbacks = 0 := by
    intro new hnew hget
    rcases getElem?_concat_cases hget with hold | ⟨-, rfl⟩
    · rw [hnone] at hold
      cases hold
    · exact hnew
  have hsame : cl'.calls[k]? = none → call.callbacks = 0 := by
    intro hnone'
    rw [hnone'] at hcall
    cases hcall
  cases step_cases hstep with
  | registerConversation => exact hstart _ rfl hcall
  | registerCharacter => exact hstart _ rfl hcall
  | registerDialogue => exact hstart _ rfl hcall
  | answer hanswer =>
    obtain ⟨call₀, r, next, reply, -, -, -, call', -, rfl⟩ := answer_cases hanswer
    refine hsame ?_
    rw [runCompletion_calls, List.getElem?_eq_none_iff, List.length_set]
    exact List.getElem?_eq_none_iff.1 hnone
  | _ => exact hsame hnone

/-- The answers the uploads of the client can still get. -/
def outstanding (cl : Client) : ℕ := (cl.calls.map Call.todo).sum

/-- What replacing an entry does to a sum. -/
theorem sum_map_set {α : Type*} (f : α → ℕ) {l : List α} {k : ℕ} {x : α} (hx : l[k]? = some x)
    (y : α) : ((l.set k y).map f).sum + f x = (l.map f).sum + f y := by
  induction l generalizing k with
  | nil => simp at hx
  | cons a l ih =>
    cases k with
    | zero =>
      obtain rfl : a = x := Option.some.inj hx
      simp only [List.set_cons_zero, List.map_cons, List.sum_cons]
      omega
    | succ k =>
      have htail := ih (k := k) hx
      simp only [List.set_cons_succ, List.map_cons, List.sum_cons]
      omega

/-- What an event adds to the answers that can come: a registration at most its protocol. -/
def Event.grant : Event → ℕ
  | .register _ _ => 8
  | .didTapRegisterButton _ => 2
  | _ => 0

theorem Event.grant_of_isAnswer {e : Event} (h : e.isAnswer = true) : e.grant = 0 := by
  cases e with
  | answer k o => rfl
  | _ => cases h

/-- An answer is paid for by what was outstanding, a new upload by its register tap. -/
theorem step_outstanding {e : Event} (h : ∀ call ∈ cl.calls, call.OnProtocol)
    (hstep : cl.step names url client b e = some (b', cl')) :
    cl'.outstanding + e.isAnswer.toNat ≤ cl.outstanding + e.grant := by
  have hstart : ∀ new : Call, ∀ cl' : Client, cl'.calls = cl.calls ++ [new] →
      cl'.outstanding = cl.outstanding + new.todo := by
    intro new cl' hcalls
    simp [outstanding, hcalls]
  cases step_cases hstep with
  | @screen e e' create he hcreate => cases e <;> first | exact Nat.le_refl _ | cases he
  | registerConversation =>
    rw [hstart _ _ rfl]
    exact Nat.add_le_add_left Call.todo_le _
  | registerCharacter =>
    rw [hstart _ _ rfl]
    exact Nat.add_le_add_left Call.todo_le _
  | registerDialogue =>
    rw [hstart _ _ rfl]
    exact Nat.add_le_add_left (Nat.le_trans Call.todo_le (show 4 - 0 ≤ 8 by decide)) _
  | registerNothing => exact Nat.le_add_right _ _
  | answer hanswer =>
    obtain ⟨call, r, next, reply, hcall, hprogram, -, call', hcall', rfl⟩ := answer_cases hanswer
    have hpaid : call'.todo + 1 ≤ call.todo := by
      rw [hcall']
      exact (h call (List.mem_of_getElem? hcall)).todo_resume hprogram _ _ _
    have hsum := sum_map_set Call.todo hcall call'
    simp only [outstanding, runCompletion_calls, Event.isAnswer, Event.grant, Bool.toNat_true]
    omega
  | _ => exact Nat.le_refl _

/-- Every request can be answered with an error. -/
theorem exists_answer {k : ℕ} {call : Call} (hcall : cl.calls[k]? = some call)
    (hpending : call.program.pending = true) :
    ∃ o x, cl.step names url client b (.answer k o) = some x := by
  have hperform : ∀ r, ∃ y, b.perform cl.create cl.device ⟨false, "", [], 0⟩ r = some y := by
    intro r
    cases r with
    | putFile path file =>
      cases hread : cl.device.read file with
      | none => exact ⟨(b, true), by simp [Backend.perform, hread]⟩
      | some recording => exact ⟨(b, true), by simp [Backend.perform, hread]⟩
    | _ => exact ⟨_, rfl⟩
  cases hprogram : call.program with
  | call r next =>
    obtain ⟨y, hy⟩ := hperform r
    refine ⟨⟨false, "", [], 0⟩, ?_⟩
    simp only [step, answer, hcall, hprogram, hy]
    exact ⟨_, rfl⟩
  | _ =>
    rw [hprogram] at hpending
    cases hpending

/-- Without a pending request there is nothing to answer. -/
theorem pending_of_answer {k : ℕ} {o : Outcome}
    (hstep : cl.step names url client b (.answer k o) = some (b', cl')) :
    ∃ call ∈ cl.calls, call.program.pending = true := by
  obtain ⟨call, r, next, reply, hcall, hprogram, -⟩ := answer_cases hstep
  exact ⟨call, List.mem_of_getElem? hcall, by rw [hprogram]; rfl⟩

end Client

/-! ## Counting the answers -/

/-- The event answers the upload. -/
def Owner.answeredBy (i : Owner) : ℕ × Client.Event → Bool
  | (client, .answer k _) => client = i.client ∧ k = i.call
  | _ => false

theorem Owner.answeredBy_eq_false {i : Owner} {e : ℕ × Client.Event}
    (h : ∀ o, e ≠ (i.client, .answer i.call o)) : i.answeredBy e = false := by
  obtain ⟨client, e⟩ := e
  cases e with
  | answer k o =>
    rw [Owner.answeredBy, decide_eq_false_iff_not]
    rintro ⟨rfl, rfl⟩
    exact h o rfl
  | _ => rfl

namespace World

variable {names : Names} {url : URLParser} {disks : ℕ → Disk} {w w' : World}

/-- Every upload of every client is on its protocol. -/
def OnProtocol (w : World) : Prop :=
  ∀ client, ∀ call ∈ (w.parts client).calls, call.OnProtocol

theorem step_onProtocol (w : World) (e : ℕ × Client.Event) (w' : World) (h : w.OnProtocol)
    (hstep : step names url w e = some w') : w'.OnProtocol := by
  obtain ⟨client, e⟩ := e
  obtain ⟨hclient, hparts⟩ := Shared.advance_eq_some hstep
  intro client'
  by_cases hsame : client' = client
  · subst hsame
    exact Client.step_onProtocol (h client') hclient
  · rw [hparts client' hsame]
    exact h client'

theorem onProtocol_init (disks : ℕ → Disk) : (init disks).OnProtocol :=
  fun _ _ hcall => absurd hcall List.not_mem_nil

/-- The callbacks an upload has run, zero before it has been started. -/
def callbacks (w : World) (i : Owner) : ℕ :=
  ((w.parts i.client).calls[i.call]?.map Call.callbacks).getD 0

theorem step_callbacks {i : Owner} {e : ℕ × Client.Event}
    (hstep : step names url w e = some w') :
    w'.callbacks i = w.callbacks i + if i.answeredBy e then 1 else 0 := by
  rcases answers_or_other i e with ⟨o, rfl⟩ | hother
  · obtain ⟨hclient, -⟩ := Shared.advance_eq_some hstep
    cases hcall : (w.parts i.client).calls[i.call]? with
    | none =>
      obtain ⟨call, -, -, -, hcall', -⟩ := Client.answer_cases hclient
      rw [hcall] at hcall'
      cases hcall'
    | some call =>
      obtain ⟨r, next, reply, m, -, -, hget⟩ := Client.answer_call hclient hcall
      simp [callbacks, hcall, hget, Call.resume, Owner.answeredBy]
  · rw [Owner.answeredBy_eq_false hother]
    cases hcall : (w.parts i.client).calls[i.call]? with
    | none =>
      cases hcall' : (w'.parts i.client).calls[i.call]? with
      | none => simp [callbacks, hcall, hcall']
      | some call =>
        have hclient := step_of_started hstep hcall hcall'
        have hzero := Client.step_started_callbacks hclient hcall hcall'
        simp [callbacks, hcall, hcall', hzero]
    | some call =>
      have hget := step_call hstep hcall hother
      simp [callbacks, hcall, hget]

theorem run_callbacks {i : Owner} {es : List (ℕ × Client.Event)}
    (hrun : run names url w es = some w') :
    w'.callbacks i = w.callbacks i + es.countP i.answeredBy := by
  induction es generalizing w with
  | nil =>
    obtain rfl := Option.some.inj hrun
    rfl
  | cons e es ih =>
    obtain ⟨t, ht, hrest⟩ := run_cons_eq_some.1 hrun
    rw [ih hrest, step_callbacks ht, List.countP_cons]
    omega

/-- One for an answer to the client. -/
def answersOf (client : ℕ) (e : ℕ × Client.Event) : ℕ :=
  if e.1 = client then e.2.isAnswer.toNat else 0

/-- What an event of the client adds to its outstanding answers. -/
def grantTo (client : ℕ) (e : ℕ × Client.Event) : ℕ := if e.1 = client then e.2.grant else 0

/-- In every run, an upload that has got `n` answers waits for request `n` of its protocol, has called
its completion only if the protocol has `n` requests, and gets no further answer then. -/
theorem followsProtocol (es : List (ℕ × Client.Event)) (w : World)
    (hrun : run names url (init disks) es = some w) (i : Owner) (call : Call)
    (hcall : (w.parts i.client).calls[i.call]? = some call) :
    es.countP i.answeredBy ≤ call.origin.protocol.length ∧
    (∀ r, call.program.request? = some r →
      call.origin.protocol[es.countP i.answeredBy]? = some r.kind) ∧
    (call.program.finished = true →
      es.countP i.answeredBy = call.origin.protocol.length) := by
  have hprotocol : w.OnProtocol :=
    run_invariant step_onProtocol (onProtocol_init disks) hrun
  have hcall' := hprotocol i.client call (List.mem_of_getElem? hcall)
  have hcount : call.callbacks = es.countP i.answeredBy := by
    have h := run_callbacks (i := i) hrun
    simpa [callbacks, hcall, init, Client.launched] using h
  rw [← hcount]
  exact ⟨hcall'.callbacks_le, fun r hr => hcall'.pending hr, hcall'.finished⟩

theorem followsProtocol_sample :
    ∃ w call, run Names.letters URLParser.nonempty (init fun _ => .new "documents") registerCharacter =
        some w ∧
      (w.parts 0).calls[0]? = some call ∧ call.program.finished = true ∧
      registerCharacter.countP (Owner.answeredBy ⟨0, 0⟩) = call.origin.protocol.length := by
  have hrun : ∃ w call, run Names.letters URLParser.nonempty (init fun _ => .new "documents")
      registerCharacter = some w ∧ (w.parts 0).calls[0]? = some call ∧
      call.program.finished = true := ⟨_, _, rfl, rfl, rfl⟩
  obtain ⟨w, call, hrun, hcall, hdone⟩ := hrun
  exact ⟨w, call, hrun, hcall, hdone, (followsProtocol _ w hrun ⟨0, 0⟩ call hcall).2.2 hdone⟩

/-! ## How many answers a run can have -/

/-- What is outstanding pays for the answers. -/
theorem run_outstanding {es : List (ℕ × Client.Event)} (h : w.OnProtocol)
    (hrun : run names url w es = some w') (client : ℕ) :
    (w'.parts client).outstanding + (es.map (answersOf client)).sum ≤
      (w.parts client).outstanding + (es.map (grantTo client)).sum := by
  refine run_potential (I := OnProtocol) (p := fun w => (w.parts client).outstanding)
    step_onProtocol (fun w e w' h hstep => ?_) h hrun
  obtain ⟨client', e⟩ := e
  obtain ⟨hclient, hparts⟩ := Shared.advance_eq_some hstep
  by_cases hsame : client = client'
  · subst hsame
    have hpay := Client.step_outstanding (h client) hclient
    simpa [answersOf, grantTo] using hpay
  · rw [hparts client hsame]
    simp [answersOf, Ne.symm hsame]

/-- In every run, the answers a client has got and those it can still get are at most eight for each
register tap of a registration screen and two for each register tap of the create screen. -/
theorem answersBounded (es : List (ℕ × Client.Event)) (w : World)
    (hrun : run names url (init disks) es = some w) (client : ℕ) :
    (w.parts client).outstanding + (es.map (answersOf client)).sum ≤
      (es.map (grantTo client)).sum := by
  have hpaid := run_outstanding (onProtocol_init disks) hrun client
  have hnone : ((init disks).parts client).outstanding = 0 := rfl
  omega

theorem answersBounded_sample :
    ∃ w, run Names.letters URLParser.nonempty (init fun _ => .new "documents") registerCharacter =
        some w ∧
      (registerCharacter.map (grantTo 0)).sum = 8 ∧
      (w.parts 0).outstanding + (registerCharacter.map (answersOf 0)).sum ≤ 8 := by
  have hrun : ∃ w, run Names.letters URLParser.nonempty (init fun _ => .new "documents")
      registerCharacter = some w := ⟨_, rfl⟩
  obtain ⟨w, hrun⟩ := hrun
  exact ⟨w, hrun, rfl, answersBounded _ w hrun 0⟩

/-- Where the client only gets answers, each of its events is one. -/
theorem sum_answersOf {client : ℕ} {fs : List (ℕ × Client.Event)}
    (hfs : ∀ f ∈ fs, f.1 = client → f.2.isAnswer = true) :
    (fs.map (answersOf client)).sum = fs.countP (·.1 = client) := by
  induction fs with
  | nil => rfl
  | cons f fs ih =>
    rw [List.map_cons, List.sum_cons, List.countP_cons, Nat.add_comm,
      ih fun g hg => hfs g (List.mem_cons_of_mem f hg), answersOf]
    by_cases hclient : f.1 = client
    · simp [hclient, hfs f List.mem_cons_self hclient]
    · simp [hclient]

/-- A client that only gets answers, whatever they are and whatever the other clients do in between,
comes to rest: there are no more of them than are outstanding, and they end when no upload is pending
any more, not before. -/
theorem comesToRest (es fs : List (ℕ × Client.Event)) (w w' : World) (client : ℕ)
    (hrun : run names url (init disks) es = some w)
    (hfs : ∀ f ∈ fs, f.1 = client → f.2.isAnswer = true)
    (hrest : run names url w fs = some w') :
    fs.countP (·.1 = client) ≤ (w.parts client).outstanding ∧
    ((∀ k o, step names url w' (client, .answer k o) = none) ↔
      ∀ call ∈ (w'.parts client).calls, call.program.pending = false) := by
  have hprotocol : w.OnProtocol :=
    run_invariant step_onProtocol (onProtocol_init disks) hrun
  refine ⟨?_, ?_, ?_⟩
  · have hpaid := run_outstanding hprotocol hrest client
    have hcharge := sum_answersOf hfs
    have hgrant : (fs.map (grantTo client)).sum = 0 := by
      refine List.sum_eq_zero fun n hn => ?_
      obtain ⟨f, hf, rfl⟩ := List.mem_map.1 hn
      unfold grantTo
      split_ifs with hclient
      · exact Client.Event.grant_of_isAnswer (hfs f hf hclient)
      · rfl
    omega
  · intro hstuck call hcall
    by_contra hpending
    rw [Bool.not_eq_false] at hpending
    obtain ⟨k, hk, rfl⟩ := List.mem_iff_getElem.1 hcall
    have hanswer : ∃ o x,
        (w'.parts client).step names url client w'.shared (.answer k o) = some x :=
      Client.exists_answer (List.getElem?_eq_getElem hk) hpending
    obtain ⟨o, x, hx⟩ := hanswer
    have hnone := hstuck k o
    rw [step, Shared.advance, hx] at hnone
    cases hnone
  · intro hidle k o
    by_contra hsome
    obtain ⟨w'', hw''⟩ := Option.ne_none_iff_exists'.1 hsome
    obtain ⟨hclient, -⟩ := Shared.advance_eq_some hw''
    obtain ⟨call, hcall, hpending⟩ := Client.pending_of_answer hclient
    rw [hidle call hcall] at hpending
    cases hpending

/-- The answers to the upload of the first client, while another one opens a registration screen and
registers. -/
def answersBeside : List (ℕ × Client.Event) :=
  [(1, .showRegisterViewController), (1, .register 0 0)] ++ registerCharacter.drop 5

theorem comesToRest_sample :
    ∃ w w', run Names.letters URLParser.nonempty (init fun _ => .new "documents")
        (registerCharacter.take 5) = some w ∧
      run Names.letters URLParser.nonempty w answersBeside = some w' ∧
      8 ≤ (w.parts 0).outstanding ∧
      ∀ k o, step Names.letters URLParser.nonempty w' (0, .answer k o) = none := by
  have hrun : ∃ w w', run Names.letters URLParser.nonempty (init fun _ => .new "documents")
      (registerCharacter.take 5) = some w ∧
      run Names.letters URLParser.nonempty w answersBeside = some w' ∧
      w'.idle 0 = true := ⟨_, _, rfl, rfl, rfl⟩
  obtain ⟨w, w', hrun, hrest, hidle⟩ := hrun
  obtain ⟨hbound, hend⟩ := comesToRest _ _ w w' 0 hrun (by decide) hrest
  refine ⟨w, w', hrun, hrest, hbound, hend.2 fun call hcall => ?_⟩
  have hnone := List.all_eq_true.1 hidle call hcall
  cases hprogram : call.program with
  | call r next => simp [hprogram, Async.request?] at hnone
  | _ => rfl

end World

end DialogueApp
