import DialogueApp.Proof.ClientInvariant
import DialogueApp.Lib.Runs

/-!
# The invariant of the world

One event of one client keeps the store invariant and the client's, and does to the store only what
the uploads of the other clients rely on.  So every run of the world keeps all of them.
-/

namespace DialogueApp

open Backend

section

variable {names : Names} {frozen paired : Prop} {url : URLParser} {client : ℕ} {b b' : Backend}
  {cl cl' : Client}

/-- The step does not change the picked lines while an animation runs. -/
def PicksKept (names : Names) (url : URLParser) (client : ℕ) (b : Backend) (cl : Client)
    (e : Client.Event) : Prop :=
  ∀ b' cl', cl.step names url client b e = some (b', cl') → cl.Animating →
    cl'.create.bottomDialogues = cl.create.bottomDialogues

/-- The answer to the write of a new character's line is a success exactly when the character is
stored. -/
def LineFollowsCharacter (names : Names) (client : ℕ) (b : Backend) (cl : Client) :
    Client.Event → Prop
  | .answer k o => ∀ call r next, cl.calls[k]? = some call → call.program = .call r next →
      call.origin.IsCharacter → IsLineWrite r →
      (o.ok = true ↔ StoredBy names b .characters ⟨client, k⟩)
  | _ => True

/-- The condition on a step under the two assumptions. -/
def Allowed (names : Names) (url : URLParser) (frozen paired : Prop) (client : ℕ) (b : Backend)
    (cl : Client) (e : Client.Event) : Prop :=
  (frozen → PicksKept names url client b cl e) ∧
    (paired → LineFollowsCharacter names client b cl e)

theorem DecodedScreen.offStack {s : RegisterScreen} {onStack : Bool} (h : DecodedScreen b s) :
    DecodedScreen b { s with onStack } := h

/-- What a completion does to the client that runs it. -/
theorem ClientInv.runCompletion {call : Call} (h : ClientInv names frozen paired client b cl)
    (hknown : ∀ completion m, call.program = .done (completion, m) → b.Known completion) :
    ClientInv names frozen paired client b (cl.runCompletion names call) := by
  have hscreens : ∀ s ∈ (cl.runCompletion names call).screens, DecodedScreen b s := by
    obtain ⟨f, hf⟩ := @Client.runCompletion_screens names cl call
    rw [hf]
    intro s hs
    obtain ⟨s₀, hs₀, rfl⟩ := List.mem_map.1 hs
    exact (h.screens s₀ hs₀).offStack
  rcases @Client.runCompletion_cases names cl call with heq | ⟨screen, create, heq, hcreate⟩
  · rw [heq]
    exact h
  · have hsame : (cl.runCompletion names call).create = create := by
      rw [heq, Client.popToRoot_create]
      rfl
    have hdecoded : Decoded b create := by
      rcases hcreate with ⟨newInfo, m, hprogram, rfl⟩ | ⟨dialogues, m, selected, hprogram, rfl⟩
      · exact step_decoded names.sameName h.create (e := .updateCharacter newInfo)
          (hknown _ m hprogram) rfl
      · exact step_decoded names.sameName h.create (e := .addedDialogue dialogues selected)
          (hknown _ m hprogram) rfl
    exact h.update (Client.runCompletion_calls call) (hsame ▸ hdecoded) hscreens
      fun _ _ => Client.runCompletion_bottomDialogues call

/-- The answer to a pending request of a client. -/
theorem ClientInv.answer (h : ClientInv names frozen paired client b cl)
    (hb : b.Consistent names frozen paired) {k : ℕ} {o : Outcome}
    (hpaired : paired → LineFollowsCharacter names client b cl (.answer k o))
    (hstep : cl.answer names client b k o = some (b', cl')) :
    b'.Consistent names frozen paired ∧ ClientInv names frozen paired client b' cl' ∧
      ∀ i, i ≠ ⟨client, k⟩ → Rely names i b b' := by
  obtain ⟨call, r, next, reply, hcall, hprogram, hperform, call', hcall', rfl⟩ :=
    Client.answer_cases hstep
  obtain ⟨hb', heffect, hinv, hknown⟩ :=
    (h.calls k call hcall).resume hb hprogram hperform
      (ownsMoment k (call.callbacks + 1) o.now) h.create.bottomDialogues rfl
      (fun hp hc hr => hpaired hp call r next hcall hprogram hc hr) (cl.soundOf r o)
  rw [← hcall'] at hinv
  refine ⟨hb', ?_, fun i hi => heffect.rely hi⟩
  have hk := (List.getElem?_eq_some_iff.1 hcall).1
  have hother : ∀ k', k' ≠ k → Rely names ⟨client, k'⟩ b b' := by
    intro k' hk'
    exact heffect.rely fun heq => hk' (Owner.mk.inj heq).2
  refine ClientInv.runCompletion ⟨h.create.grows heffect.grows, ?_, ?_, ?_⟩ ?_
  · exact fun s hs info selected hkind =>
      heffect.grows.hasCharacter (h.screens s hs info selected hkind)
  · intro k' call'' hget
    dsimp only at hget
    rw [List.getElem?_set] at hget
    split_ifs at hget with heq
    · subst heq
      obtain rfl := Option.some.inj hget
      exact hinv
    · exact (h.calls k' call'' hget).rely (hother k' (Ne.symm heq))
  · intro k' hk'
    dsimp only at hk'
    rw [List.length_set] at hk'
    exact (h.fresh k' hk').rely (hother k' (by omega))
  · intro completion m hdone
    rw [hcall'] at hdone
    exact hknown completion m hdone

/-- An event of the create screen brings only what has been decoded. -/
theorem ClientInv.decodedEvent (h : ClientInv names frozen paired client b cl) {e : Client.Event}
    {e' : CreateChatController.Event} (he : cl.screenEvent b e = some e') : DecodedEvent b e' := by
  cases e with
  | fetchCharacters found now =>
    obtain rfl := Option.some.inj he
    intro x hx
    obtain ⟨d, hd, rfl⟩ := List.mem_map.1 hx
    exact ⟨d, mem_find hd, now, rfl⟩
  | fetchDialogues found now =>
    obtain rfl := Option.some.inj he
    intro x hx
    obtain ⟨d, hd, rfl⟩ := List.mem_map.1 hx
    exact ⟨d, mem_find hd, now, rfl⟩
  | selectCharacter cell =>
    obtain ⟨character, hget, rfl⟩ := Option.map_eq_some_iff.1 he
    exact h.create.listCharacters character (List.mem_of_getElem? hget)
  | didSelectRow row | defaultUI onScreen | editTitle text | showKeyboard height =>
    obtain rfl := Option.some.inj he
    trivial
  | _ => cases he

/-- An event keeps the store invariant and the client's, and every upload that it does not answer can
rely on it. -/
theorem step_inv {e : Client.Event} (hb : b.Consistent names frozen paired)
    (h : ClientInv names frozen paired client b cl)
    (hok : Allowed names url frozen paired client b cl e)
    (hstep : cl.step names url client b e = some (b', cl')) :
    b'.Consistent names frozen paired ∧ ClientInv names frozen paired client b' cl' ∧
      ∀ i : Owner, (∀ o, (client, e) ≠ (i.client, .answer i.call o)) → Rely names i b b' := by
  have hquiet : ClientInv names frozen paired client b cl' →
      b.Consistent names frozen paired ∧ ClientInv names frozen paired client b cl' ∧
        ∀ i : Owner, (∀ o, (client, e) ≠ (i.client, .answer i.call o)) → Rely names i b b :=
    fun hcl' => ⟨hb, hcl', fun _ _ => Rely.refl _⟩
  cases Client.step_cases hstep with
  | screen he hcreate =>
    have hdecoded := step_decoded names.sameName h.create (h.decodedEvent he) hcreate
    exact hquiet (h.update rfl hdecoded h.screens fun hf => hok.1 hf _ _ hstep)
  | registerConversation => exact hquiet (h.registerConversation _)
  | addNothing => exact hquiet h
  | addDialogue hselected hurl => exact hquiet (h.addDialogue hb hselected hurl)
  | showRegister =>
    refine hquiet (h.update rfl h.create (fun s hs => ?_) fun _ _ => rfl)
    rcases List.mem_append.1 hs with hs | hs
    · exact h.screens s hs
    · obtain rfl := List.mem_singleton.1 hs
      exact nofun
  | @back screen s hs =>
    have hkind : { s with onStack := false }.kind = s.kind := rfl
    exact hquiet (h.setScreen hs hkind rfl rfl rfl)
  | @onScreen screen s e hs =>
    exact hquiet (h.setScreen hs (s.handle_kind cl.device screen e) rfl rfl rfl)
  | registerCharacter hs hkind =>
    exact hquiet (h.start rfl rfl h.create rfl fun hu => callInv_character hu (ownsMoment _ _ _))
  | registerDialogue hs hkind => exact hquiet (h.registerDialogue hs hkind)
  | registerNothing => exact hquiet (h.update rfl h.create h.screens fun _ _ => rfl)
  | pickerOpening => exact hquiet (h.update rfl h.create h.screens fun _ _ => rfl)
  | pickerPresented => exact hquiet (h.update rfl h.create h.screens fun _ _ => rfl)
  | @answer k o _ _ hanswer =>
    obtain ⟨hb', hcl', hrely⟩ := h.answer hb hok.2 hanswer
    refine ⟨hb', hcl', fun i hi => hrely i fun heq => ?_⟩
    subst heq
    exact hi o rfl

end

namespace World

variable {names : Names} {frozen paired : Prop} {url : URLParser} {w w' : World}

/-- The store invariant, and the invariant of every client. -/
def Inv (names : Names) (frozen paired : Prop) (w : World) : Prop :=
  w.shared.Consistent names frozen paired ∧
    ∀ client, ClientInv names frozen paired client w.shared (w.parts client)

/-- The condition on an event of the world under the two assumptions. -/
def Allowed (names : Names) (url : URLParser) (frozen paired : Prop) (w : World)
    (e : ℕ × Client.Event) : Prop :=
  DialogueApp.Allowed names url frozen paired e.1 w.shared (w.parts e.1) e.2

theorem inv_init (disks : ℕ → Disk) :
    (init disks).Inv names frozen paired := by
  refine ⟨?_, fun client => ⟨decoded_presented, nofun, nofun, fun k _ => ⟨?_, nofun⟩⟩⟩
  · exact ⟨nofun, nofun, nofun, nofun, nofun, nofun⟩
  · rintro (_ | _ | _) ⟨d, hd, -⟩
    · cases hd
    · cases hd
    · cases hd

theorem step_inv (w : World) (e : ℕ × Client.Event) (w' : World) (h : w.Inv names frozen paired)
    (hok : w.Allowed names url frozen paired e) (hstep : step names url w e = some w') :
    w'.Inv names frozen paired :=
  Shared.advance_inv (R := fun client b b' => ∀ k, Rely names ⟨client, k⟩ b b')
    (fun _ _ _ _ hcl hr => hcl.rely hr)
    (fun client b cl e b' cl' hb hcl hok hstep => by
      obtain ⟨hb', hcl', hrely⟩ := DialogueApp.step_inv hb hcl hok hstep
      exact ⟨hb', hcl', fun j hj k => hrely ⟨j, k⟩ fun o heq => hj (Prod.mk.inj heq).1.symm⟩)
    h.1 h.2 hok hstep

/-- What needs no assumption is kept by every event. -/
theorem step_inv_false (w : World) (e : ℕ × Client.Event) (w' : World) (h : w.Inv names False False)
    (hstep : step names url w e = some w') : w'.Inv names False False :=
  step_inv w e w' h ⟨False.elim, False.elim⟩ hstep

/-- An upload that an event does not answer can rely on the event. -/
theorem step_rely {w w' : World} {e : ℕ × Client.Event} (h : w.Inv names False False)
    (hstep : step names url w e = some w') (i : Owner)
    (hi : ∀ o, e ≠ (i.client, .answer i.call o)) : Rely names i w.shared w'.shared := by
  obtain ⟨client, e⟩ := e
  obtain ⟨hclient, -⟩ := Shared.advance_eq_some hstep
  exact (DialogueApp.step_inv h.1 (h.2 client) ⟨False.elim, False.elim⟩ hclient).2.2 i hi

/-- An upload that an event does not answer stays as it is. -/
theorem step_call {w w' : World} {e : ℕ × Client.Event} (hstep : step names url w e = some w')
    {i : Owner} {call : Call} (hcall : (w.parts i.client).calls[i.call]? = some call)
    (hi : ∀ o, e ≠ (i.client, .answer i.call o)) :
    (w'.parts i.client).calls[i.call]? = some call := by
  obtain ⟨client, e⟩ := e
  obtain ⟨hclient, hparts⟩ := Shared.advance_eq_some hstep
  by_cases hsame : i.client = client
  · subst hsame
    rcases Client.step_call hclient hcall with ⟨o, rfl⟩ | hget
    · exact absurd rfl (hi o)
    · exact hget
  · rw [hparts i.client hsame]
    exact hcall

/-- An event answers an upload or leaves it alone. -/
theorem answers_or_other (i : Owner) (e : ℕ × Client.Event) :
    (∃ o, e = (i.client, .answer i.call o)) ∨ ∀ o, e ≠ (i.client, .answer i.call o) := by
  by_cases h : ∃ o, e = (i.client, .answer i.call o)
  · exact Or.inl h
  · exact Or.inr fun o heq => h ⟨o, heq⟩

/-- An upload is started by a step of its client. -/
theorem step_of_started {client k : ℕ} {w w' : World} {e : ℕ × Client.Event} {call : Call}
    (hstep : step names url w e = some w') (hnone : (w.parts client).calls[k]? = none)
    (hcall : (w'.parts client).calls[k]? = some call) :
    (w.parts client).step names url client w.shared e.2 = some (w'.shared, w'.parts client) := by
  obtain ⟨client', e⟩ := e
  obtain ⟨hclient, hparts⟩ := Shared.advance_eq_some hstep
  by_cases hsame : client = client'
  · subst hsame
    exact hclient
  · rw [hparts client hsame, hnone] at hcall
    cases hcall

theorem run_inv {disks : ℕ → Disk} {es : List (ℕ × Client.Event)}
    (hrun : run names url (init disks) es = some w)
    (hok : Runs.AllSteps (step names url) (Allowed names url frozen paired)
      (init disks) es) : w.Inv names frozen paired :=
  Runs.run_invariant_of_allSteps step_inv (inv_init disks) hok hrun

/-- Every run keeps what needs no assumption. -/
theorem run_inv_false {disks : ℕ → Disk} {es : List (ℕ × Client.Event)}
    (hrun : run names url (init disks) es = some w) : w.Inv names False False :=
  Runs.run_invariant step_inv_false (inv_init disks) hrun

end World

end DialogueApp
