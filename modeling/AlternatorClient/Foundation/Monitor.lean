import AlternatorClient.Foundation.Interleaving

/-! A lock over one part of a shared state, the view. Calls that touch the view
only while they hold the lock, and leave it right when they let go, keep it
right whenever the lock is free, and never all wait for each other. -/
namespace Foundation
variable {ι σ ν α β : Type}

structure Monitor (σ ν : Type) where
  held : σ → Bool
  view : σ → ν
  /-- What the view satisfies while nobody holds the lock. -/
  Right : ν → Prop
  /-- An invariant of all regions, those under the lock and those outside. -/
  World : σ → Prop

/-- What a region may do while the call does not hold the lock: it waits for
nothing but the lock, and touches neither the lock nor the view. -/
structure Monitor.Outside (m : Monitor σ ν) (ready : σ → Bool) (update : σ → σ) : Prop where
  waits : ∀ s, m.held s = false → ready s = true
  world : ∀ s, m.World s → ready s = true → m.World (update s)
  held : ∀ s, m.World s → ready s = true → m.held (update s) = m.held s
  view : ∀ s, m.World s → ready s = true → m.view (update s) = m.view s

/-- The region that takes the lock: it waits until the lock is free, and leaves the
protected view as it is. -/
structure Monitor.Acquires (m : Monitor σ ν) (ready : σ → Bool) (update : σ → σ) : Prop where
  waits : ∀ s, ready s = true ↔ m.held s = false
  world : ∀ s, m.World s → m.held s = false → m.World (update s)
  held : ∀ s, m.World s → m.held s = false → m.held (update s) = true
  view : ∀ s, m.World s → m.held s = false → m.view (update s) = m.view s

/-- A region under the lock never waits, so a thread in its critical section can
always go on. It finds the view `v` and leaves the lock as `after` says. -/
structure Monitor.Inside (m : Monitor σ ν) (after : Bool) (v : ν) (ready : σ → Bool)
    (update : σ → σ) : Prop where
  waits : ∀ s, m.held s = true → ready s = true
  world : ∀ s, m.World s → m.view s = v → m.World (update s)
  held : ∀ s, m.World s → m.held s = true → m.view s = v → m.held (update s) = after

/-- The call keeps to the lock. The mode says whether it holds the lock, and
which view it then left behind; `post` is what holds at the end. -/
inductive Respects (m : Monitor σ ν) (post : Option ν → α → Prop) : Option ν → Program σ α → Prop
  | done {mode : Option ν} {a : α} (ends : post mode a) : Respects m post mode (.done a)
  | outside {ready : σ → Bool} {update : σ → σ} {next : σ → Program σ α}
    (does : m.Outside ready update)
    (rest : ∀ s, m.World s → ready s = true → Respects m post none (next s)) :
    Respects m post none (.region ready update next)
  | acquire {ready : σ → Bool} {update : σ → σ} {next : σ → Program σ α}
    (does : m.Acquires ready update)
    (rest : ∀ s, m.World s → m.Right (m.view s) → Respects m post (some (m.view s)) (next s)) :
    Respects m post none (.region ready update next)
  | inside {v : ν} {ready : σ → Bool} {update : σ → σ} {next : σ → Program σ α}
    (does : m.Inside true v ready update)
    (rest : ∀ s, m.World s → m.view s = v →
      Respects m post (some (m.view (update s))) (next s)) :
    Respects m post (some v) (.region ready update next)
  | release {v : ν} {ready : σ → Bool} {update : σ → σ} {next : σ → Program σ α}
    (does : m.Inside false v ready update)
    (right : ∀ s, m.World s → m.view s = v → m.Right (m.view (update s)))
    (rest : ∀ s, m.World s → m.view s = v → Respects m post none (next s)) :
    Respects m post (some v) (.region ready update next)

namespace Respects
variable {m : Monitor σ ν} {mode : Option ν} {post more : Option ν → α → Prop}
  {last : Option ν → β → Prop}

theorem bind {p : Program σ α} {f : α → Program σ β} (first : Respects m post mode p)
    (second : ∀ mode a, post mode a → Respects m last mode (f a)) :
    Respects m last mode (p >>= f) := by
  induction first with
  | done ends => exact second _ _ ends
  | outside does rest ih => exact .outside does ih
  | acquire does rest ih => exact .acquire does ih
  | inside does rest ih => exact .inside does ih
  | release does right rest ih => exact .release does right ih

theorem weaken {p : Program σ α} (first : Respects m post mode p)
    (weaker : ∀ mode a, post mode a → more mode a) : Respects m more mode p := by
  induction first with
  | done ends => exact .done (weaker _ _ ends)
  | outside does rest ih => exact .outside does ih
  | acquire does rest ih => exact .acquire does ih
  | inside does rest ih => exact .inside does ih
  | release does right rest ih => exact .release does right ih

theorem of_every {p : Program σ α} {result : α → Prop}
    (every : p.Every m.Outside m.World result) :
    Respects m (fun mode a => mode = none ∧ result a) none p := by
  induction every with
  | done ends => exact .done ⟨rfl, ends⟩
  | region does rest ih => exact .outside does ih

end Respects

namespace Pool
variable [DecidableEq ι] {m : Monitor σ ν}

def Ended (mode : Option ν) (_ : α) : Prop := mode = none

/-- The lock is free and the view right, or exactly one call holds the lock and
knows the view. -/
def Guarded (m : Monitor σ ν) (pool : Pool ι σ α) : Prop :=
  m.World pool.state ∧
    ((m.held pool.state = false ∧ m.Right (m.view pool.state) ∧
        ∀ i, Respects m Ended none (pool.threads i)) ∨
      (m.held pool.state = true ∧ ∃ i,
        Respects m Ended (some (m.view pool.state)) (pool.threads i) ∧
        ∀ j, j ≠ i → Respects m Ended none (pool.threads j)))

theorem forall_update {P : Program σ α → Prop} {threads : ι → Program σ α} {i : ι}
    {p : Program σ α} (own : P p) (others : ∀ j, j ≠ i → P (threads j)) :
    ∀ j, P (Function.update threads i p j) := by
  intro j
  by_cases same : j = i
  · subst same
    rwa [Function.update_self]
  · rw [Function.update_of_ne same]
    exact others j same

/-- A turn of a call while the lock is free. -/
theorem Guarded.step_free {s : σ} {threads : ι → Program σ α} {ready : σ → Bool} {update : σ → σ}
    {next : σ → Program σ α} {i : ι} (running : threads i = .region ready update next)
    (enabled : ready s = true) (world : m.World s) (free : m.held s = false)
    (right : m.Right (m.view s)) (all : ∀ i, Respects m Ended none (threads i)) :
    Guarded m ⟨update s, Function.update threads i (next s)⟩ := by
  have own := all i
  rw [running] at own
  cases own with
  | outside does rest =>
    refine ⟨does.world s world enabled, .inl ⟨?_, ?_, ?_⟩⟩
    · exact (does.held s world enabled).trans free
    · exact (does.view s world enabled).symm ▸ right
    · exact forall_update (rest s world enabled) fun j _ => all j
  | acquire does rest =>
    refine ⟨does.world s world free, .inr ⟨does.held s world free, i, ?_, ?_⟩⟩
    · simpa [does.view s world free] using rest s world right
    · intro j other
      simpa [Function.update_of_ne other] using all j

/-- A turn while one call holds the lock: its own, or one that leaves lock and
view alone. -/
theorem Guarded.step_held {s : σ} {threads : ι → Program σ α} {ready : σ → Bool} {update : σ → σ}
    {next : σ → Program σ α} {i holder : ι} (running : threads i = .region ready update next)
    (enabled : ready s = true) (world : m.World s) (taken : m.held s = true)
    (owner : Respects m Ended (some (m.view s)) (threads holder))
    (others : ∀ j, j ≠ holder → Respects m Ended none (threads j)) :
    Guarded m ⟨update s, Function.update threads i (next s)⟩ := by
  by_cases same : i = holder
  · subst same
    rw [running] at owner
    cases owner with
    | inside does rest =>
      refine ⟨does.world s world rfl, .inr ⟨does.held s world taken rfl, i, ?_, ?_⟩⟩
      · simpa using rest s world rfl
      · intro j other
        simpa [Function.update_of_ne other] using others j other
    | release does right rest =>
      refine ⟨does.world s world rfl, .inl ⟨does.held s world taken rfl, right s world rfl, ?_⟩⟩
      exact forall_update (rest s world rfl) others
  · have own := others i same
    rw [running] at own
    cases own with
    | outside does rest =>
      refine ⟨does.world s world enabled, .inr ⟨?_, holder, ?_, ?_⟩⟩
      · exact (does.held s world enabled).trans taken
      · simpa [does.view s world enabled, Function.update_of_ne (Ne.symm same)] using owner
      · intro j other
        by_cases own : j = i
        · subst own
          simpa using rest s world enabled
        · simpa [Function.update_of_ne own] using others j other
    | acquire does rest =>
      have free := (does.waits s).mp enabled
      rw [taken] at free
      contradiction

theorem Step.guarded {a b : Pool ι σ α} {turn : Turn ι σ α} (step : Step a turn b)
    (guarded : Guarded m a) : Guarded m b := by
  cases step with
  | region i running enabled =>
    obtain ⟨world, ⟨free, right, all⟩ | ⟨taken, holder, owner, others⟩⟩ := guarded
    · exact Guarded.step_free running enabled world free right all
    · exact Guarded.step_held running enabled world taken owner others

/-- Whatever the interleaving, the view is right whenever the lock is free: only the
thread that holds the lock can find or leave it otherwise. -/
theorem Run.guarded {a b : Pool ι σ α} {turns : List (Turn ι σ α)} (run : Run a turns b)
    (world : m.World a.state) (free : m.held a.state = false) (right : m.Right (m.view a.state))
    (all : ∀ i, Respects m Ended none (a.threads i)) : Guarded m b :=
  run.invariant Step.guarded ⟨world, .inl ⟨free, right, all⟩⟩

/-- As long as one call has not come to its end, some call can take a turn. -/
theorem Guarded.progress {pool : Pool ι σ α} (guarded : Guarded m pool) {i : ι}
    (left : ∀ a, pool.threads i ≠ .done a) : ∃ turn next, Step pool turn next := by
  obtain ⟨s, threads⟩ := pool
  obtain ⟨world, ⟨free, right, all⟩ | ⟨taken, holder, owner, _⟩⟩ := guarded
  · cases here : threads i with
    | done a => exact absurd here (left a)
    | region ready update next =>
      have own := all i
      simp only [here] at own
      have enabled : ready s = true := by
        cases own with
        | outside does _ => exact does.waits s free
        | acquire does _ => exact (does.waits s).mpr free
      exact ⟨_, _, .region i here enabled⟩
  · cases here : threads holder with
    | done a =>
      simp only [here] at owner
      cases owner with
      | done ends => cases ends
    | region ready update next =>
      simp only [here] at owner
      have enabled : ready s = true := by
        cases owner with
        | inside does _ => exact does.waits s taken
        | release does _ _ => exact does.waits s taken
      exact ⟨_, _, .region holder here enabled⟩

omit [DecidableEq ι] in
/-- Once every call has come to its end the lock is free. -/
theorem Guarded.ended {pool : Pool ι σ α} (guarded : Guarded m pool)
    (all : ∀ i, ∃ a, pool.threads i = .done a) : m.held pool.state = false := by
  rcases guarded.2 with ⟨free, _⟩ | ⟨_, holder, owner, _⟩
  · exact free
  · obtain ⟨a, ended⟩ := all holder
    rw [ended] at owner
    cases owner with
    | done ends => cases ends

end Pool
end Foundation
