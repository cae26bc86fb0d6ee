import AlternatorClient.Foundation.Interleaving

/-! Calls that cannot tell agreeing states apart: whichever of them they find, they
wait alike, leave states that agree and go on alike. So do any number of such calls. -/
namespace Foundation
variable {ι σ α β : Type}

/-- What a region does in a state of this world and in any state that agrees with it. -/
structure Region.Blind (agree : σ → σ → Prop) (world : σ → Prop) (ready : σ → Bool)
    (update : σ → σ) : Prop where
  waits : ∀ s t, world s → agree s t → ready t = ready s
  moves : ∀ s t, world s → ready s = true → agree s t → agree (update s) (update t)
  keeps : ∀ s, world s → ready s = true → world (update s)

/-- A call of such regions; what is left of it does not tell the states apart either. -/
inductive Program.Blind (agree : σ → σ → Prop) (world : σ → Prop) (post : α → Prop) :
    Program σ α → Prop
  | done {a : α} (ends : post a) : Blind agree world post (.done a)
  | region {ready : σ → Bool} {update : σ → σ} {next : σ → Program σ α}
    (does : Region.Blind agree world ready update)
    (same : ∀ s t, world s → agree s t → next t = next s)
    (rest : ∀ s, world s → ready s = true → Blind agree world post (next s)) :
    Blind agree world post (.region ready update next)

namespace Program.Blind
variable {agree : σ → σ → Prop} {world : σ → Prop} {post more : α → Prop} {last : β → Prop}
  {p : Program σ α}

theorem bind {f : α → Program σ β} (first : p.Blind agree world post)
    (second : ∀ a, post a → (f a).Blind agree world last) : (p >>= f).Blind agree world last := by
  induction first with
  | done ends => exact second _ ends
  | region does same rest ih =>
    refine .region does (fun s t here agrees => ?_) ih
    rw [same s t here agrees]

theorem weaken (first : p.Blind agree world post) (weaker : ∀ a, post a → more a) :
    p.Blind agree world more := by
  induction first with
  | done ends => exact .done (weaker _ ends)
  | region does same rest ih => exact .region does same ih

theorem await {ready : σ → Bool} {f : σ → α × σ}
    (does : Region.Blind agree world ready fun s => (f s).2)
    (same : ∀ s t, world s → agree s t → (f t).1 = (f s).1)
    (ends : ∀ s, world s → post (f s).1) : (await ready f).Blind agree world post :=
  .region does (fun s t here agrees => congrArg Program.done (same s t here agrees))
    fun s here _ => .done (ends s here)

theorem act {f : σ → α × σ} (moves : ∀ s t, world s → agree s t → agree (f s).2 (f t).2)
    (keeps : ∀ s, world s → world (f s).2)
    (same : ∀ s t, world s → agree s t → (f t).1 = (f s).1)
    (ends : ∀ s, world s → post (f s).1) : (act f).Blind agree world post :=
  await ⟨fun _ _ _ _ => rfl, fun s t here _ => moves s t here, fun s here _ => keeps s here⟩
    same ends

theorem ite {c : Prop} [Decidable c] {q : Program σ α} (yes : c → p.Blind agree world post)
    (no : ¬c → q.Blind agree world post) : (if c then p else q).Blind agree world post := by
  split
  · exact yes ‹c›
  · exact no ‹¬c›

end Program.Blind

namespace Pool
variable [DecidableEq ι] {agree : σ → σ → Prop} {world : σ → Prop} {post : α → Prop}

/-- The same region of the same call, in states that agree. -/
structure Turn.Alike (agree : σ → σ → Prop) (first second : Turn ι σ α) : Prop where
  thread : first.thread = second.thread
  left : first.left = second.left
  found : agree first.found second.found

/-- A turn in one state is a turn in every state that agrees with it. -/
theorem Step.mimicked {a b : Pool ι σ α} {turn : Turn ι σ α} (step : Step a turn b)
    (blind : ∀ i, (a.threads i).Blind agree world post) (here : world a.state) {t : σ}
    (agrees : agree a.state t) :
    ∃ turn' u, Step ⟨t, a.threads⟩ turn' ⟨u, b.threads⟩ ∧ Turn.Alike agree turn turn' ∧
      agree b.state u ∧ world b.state ∧ ∀ i, (b.threads i).Blind agree world post := by
  cases step with
  | @region s threads ready update next i running enabled =>
    have own := blind i
    dsimp only at here agrees own
    rw [running] at own
    cases own with
    | region does same rest =>
      have enabled' : ready t = true := (does.waits s t here agrees).trans enabled
      have step := Step.region (s := t) i running enabled'
      have continued := same s t here agrees
      rw [continued] at step
      refine ⟨_, _, step, ⟨rfl, rfl, agrees⟩, does.moves s t here enabled agrees,
        does.keeps s here enabled, fun j => ?_⟩
      by_cases turn : j = i
      · subst turn
        simpa using rest s here enabled
      · simpa [Function.update_of_ne turn] using blind j

theorem Run.mimicked {a b : Pool ι σ α} {turns : List (Turn ι σ α)} (run : Run a turns b)
    (blind : ∀ i, (a.threads i).Blind agree world post) (here : world a.state) {t : σ}
    (agrees : agree a.state t) :
    ∃ turns' u, Run ⟨t, a.threads⟩ turns' ⟨u, b.threads⟩ ∧
      List.Forall₂ (Turn.Alike agree) turns turns' ∧ agree b.state u ∧ world b.state ∧
      ∀ i, (b.threads i).Blind agree world post := by
  induction run generalizing t with
  | refl pool => exact ⟨[], t, .refl _, .nil, agrees, here, blind⟩
  | step first rest ih =>
    obtain ⟨turn', u, step, alike, agrees, here, blind⟩ := first.mimicked blind here agrees
    obtain ⟨turns', v, run, more, ended⟩ := ih blind here agrees
    exact ⟨turn' :: turns', v, .step step run, .cons alike more, ended⟩

end Pool
end Foundation
