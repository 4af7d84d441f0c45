import DialogueApp.Lib.Interleaving
import DialogueApp.Proof.ClientSteps
import DialogueApp.World

/-!
# Which interleavings matter

A touch, an edit or the keyboard concerns its own client only, a fetch reads the store, and only the
answers to the uploads write it.  So of the order of a run only two things count: the order of the
events of each client, and for each client the order of its fetches among the answers of all.
-/

namespace DialogueApp

open Interleaving

namespace Client

variable (names : Names) (url : URLParser)

/-- The answer to a fetch of the create screen, which reads the store. -/
def Event.isFetch : Event → Bool
  | .fetchCharacters _ _ => true
  | .fetchDialogues _ _ => true
  | _ => false

/-- An event of the create screen does the same to the client around any store. -/
theorem onCreate_snd (b b' : Backend) (cl : Client) (e : CreateChatController.Event) :
    (cl.onCreate names b e).map Prod.snd = (cl.onCreate names b' e).map Prod.snd := by
  rw [onCreate, onCreate, Option.map_map, Option.map_map]
  rfl

/-- A client may take an event that is no answer around any store. -/
theorem reads_of_not_answer (client : ℕ) {e : Event} (h : e.isAnswer = false) :
    Shared.Reads (step names url) client e := by
  refine ⟨fun b cl => (cl.step names url client b e).map Prod.snd, fun b cl => ?_⟩
  dsimp only
  cases hy : cl.step names url client b e with
  | none => rfl
  | some y =>
    obtain ⟨b', cl'⟩ := y
    have hsame : b' = b := by
      cases step_cases hy with
      | answer => cases h
      | _ => rfl
    subst hsame
    rfl

/-- An event that is neither a fetch nor an answer does not look at the store. -/
theorem local_of_not_store {client : ℕ} {e : Event} (hfetch : e.isFetch = false)
    (hanswer : e.isAnswer = false) : Shared.Local (step names url) client e := by
  obtain ⟨f, hf⟩ := reads_of_not_answer names url client hanswer
  refine ⟨f Backend.empty, fun b cl => ?_⟩
  have hsame : (cl.step names url client b e).map Prod.snd =
      (cl.step names url client Backend.empty e).map Prod.snd := by
    cases e with
    | fetchCharacters | fetchDialogues => cases hfetch
    | answer => cases hanswer
    | didSelectRow | defaultUI | editTitle | showKeyboard => exact onCreate_snd names _ _ _ _
    | selectCharacter cell =>
      simp only [step]
      split
      · exact onCreate_snd names _ _ _ _
      · rfl
    | didTapRegisterButton now | didTapAddDialogueButton | pickerPresented =>
      simp only [step]
      split_ifs <;> rfl
    | showRegisterViewController => rfl
    | didTapBackButton screen | didTapCharactorButton screen =>
      simp only [step, withScreen]
      split
      · split_ifs <;> rfl
      · rfl
    | onScreen screen e =>
      simp only [step]
      split
      · split_ifs <;> rfl
      · rfl
    | register screen now =>
      simp only [step, Option.map_map]
      rfl
  rw [hf, hf, Option.map_map, Option.map_map] at hsame
  rw [hf]
  have hid : (Prod.snd ∘ fun q : Client => (b, q)) = id := rfl
  have hid' : (Prod.snd ∘ fun q : Client => (Backend.empty, q)) = id := rfl
  rw [hid, hid', Option.map_id] at hsame
  exact congrArg _ hsame

end Client

namespace World

variable {names : Names} {url : URLParser}

/-- An event of the client. -/
def ofClient (client : ℕ) (e : ℕ × Client.Event) : Bool := e.1 == client

/-- An answer to an upload of any client, or a fetch of this one. -/
def seesStore (client : ℕ) (e : ℕ × Client.Event) : Bool :=
  e.2.isAnswer || (e.2.isFetch && e.1 == client)

/-- The lanes: a client, and the store as a client sees it. -/
def uses : ℕ ⊕ ℕ → ℕ × Client.Event → Bool
  | .inl client => ofClient client
  | .inr client => seesStore client

/-- Events without a common lane are of two clients, and at most one of them looks at the store where
the other may write. -/
theorem commute_of_apart {e f : ℕ × Client.Event}
    (h : ∀ k, uses k e = true → uses k f = false) : Commute (step names url) f e := by
  obtain ⟨i, e⟩ := e
  obtain ⟨j, f⟩ := f
  have hne : j ≠ i := by
    rintro rfl
    have hfalse := h (.inl j) (beq_self_eq_true j)
    exact absurd (beq_self_eq_true j) (Bool.eq_false_iff.1 hfalse)
  cases hanswer : e.isAnswer with
  | true =>
    -- the other event does not look at the store
    have hstore : seesStore j (j, f) = false :=
      h (.inr j) (by simp only [uses, seesStore, hanswer, Bool.true_or])
    simp only [seesStore, beq_self_eq_true, Bool.and_true, Bool.or_eq_false_iff] at hstore
    exact (Client.local_of_not_store names url hstore.2 hstore.1).commute hne
  | false =>
    cases hfetch : e.isFetch with
    | true =>
      have hstore : seesStore i (j, f) = false := h (.inr i) (by simp [uses, seesStore, hfetch])
      simp only [seesStore, Bool.or_eq_false_iff] at hstore
      exact (Client.reads_of_not_answer names url _ hstore.1).commute
        (Client.reads_of_not_answer names url _ hanswer) hne
    | false => exact ((Client.local_of_not_store names url hfetch hanswer).commute hne.symm).symm

/-- Two runs in which each client takes the same events, and sees the same of the store, end in the
same world: the interleaving of the clients' touches with each other and with the answers of others
makes no difference. -/
theorem sameLanes (es es' : List (ℕ × Client.Event))
    (hclient : ∀ client, es.filter (ofClient client) = es'.filter (ofClient client))
    (hstore : ∀ client, es.filter (seesStore client) = es'.filter (seesStore client)) (w : World) :
    run names url w es = run names url w es' := by
  refine run_eq_of_lanes uses (fun e => ⟨.inl e.1, beq_self_eq_true e.1⟩)
    (fun e f h => commute_of_apart h) (fun k => ?_) w
  cases k with
  | inl client => exact hclient client
  | inr client => exact hstore client

theorem sameLanes_sample :
    run Names.letters URLParser.nonempty (init fun _ => .new "documents")
        (registerCharacter ++ [(1, .editTitle "title"), (2, .fetchCharacters [0] 0)]) =
      run Names.letters URLParser.nonempty (init fun _ => .new "documents")
        ((1, .editTitle "title") :: registerCharacter ++ [(2, .fetchCharacters [0] 0)]) := by
  refine sameLanes _ _ (fun client => ?_) (fun client => ?_) _
  · match client with
    | 0 => rfl
    | 1 => rfl
    | 2 => rfl
    | _ + 3 => rfl
  · match client with
    | 0 => rfl
    | 1 => rfl
    | 2 => rfl
    | _ + 3 => rfl

end World

end DialogueApp
