import Mathlib.Data.List.Basic
import Mathlib.Logic.Function.Basic
import Mathlib.Logic.Function.Iterate
import Mathlib.Logic.Hydra

/-! Calls that are cut into atomic regions over one shared state, and runs that
interleave the regions of any number of calls in any order. -/
namespace Foundation
variable {ι σ κ α β : Type}

/-- What is left of a call. A region waits until it is ready, changes the state
in one piece, and the rest of the call depends on the state it found. -/
inductive Program (σ α : Type) where
  | done (result : α)
  | region (ready : σ → Bool) (update : σ → σ) (next : σ → Program σ α)

namespace Program

def bind : Program σ α → (α → Program σ β) → Program σ β
  | .done a, f => f a
  | .region ready update next, f => .region ready update fun s => (next s).bind f

instance : Monad (Program σ) where
  pure := .done
  bind := bind

/-- A program of one region that can run at any time: it reads and writes the shared
state at once and returns. -/
def act (f : σ → α × σ) : Program σ α :=
  .region (fun _ => true) (fun s => (f s).2) fun s => .done (f s).1

/-- A program of one region that can run only in a state where the condition holds,
as one that takes a lock. -/
def await (ready : σ → Bool) (f : σ → α × σ) : Program σ α :=
  .region ready (fun s => (f s).2) fun s => .done (f s).1

def look (f : σ → α) : Program σ α := act fun s => (f s, s)

@[simp] theorem pure_eq (a : α) : (pure a : Program σ α) = .done a := rfl

@[simp] theorem done_bind (a : α) (f : α → Program σ β) : (Program.done a >>= f) = f a := rfl

@[simp] theorem region_bind (ready : σ → Bool) (update : σ → σ) (next : σ → Program σ α)
    (f : α → Program σ β) :
    (Program.region ready update next >>= f) = .region ready update fun s => next s >>= f := rfl

@[simp] theorem map_eq (f : α → β) (p : Program σ α) : f <$> p = p >>= fun a => .done (f a) := rfl

theorem bind_bind (p : Program σ α) (f : α → Program σ β) (g : β → Program σ κ) :
    ((p >>= f) >>= g) = p >>= fun a => f a >>= g := by
  induction p with
  | done a => rfl
  | region ready update next ih =>
    simp only [region_bind]
    congr 1
    funext s
    exact ih s

theorem act_bind (f : σ → α × σ) (g : α → Program σ β) :
    (act f >>= g) = .region (fun _ => true) (fun s => (f s).2) fun s => g (f s).1 := rfl

theorem await_bind (ready : σ → Bool) (f : σ → α × σ) (g : α → Program σ β) :
    (await ready f >>= g) = .region ready (fun s => (f s).2) fun s => g (f s).1 := rfl

theorem look_bind (f : σ → α) (g : α → Program σ β) :
    (look f >>= g) = .region (fun _ => true) id fun s => g (f s) := rfl

/-- The call with nothing in between; `none` when it has to wait. -/
def runAlone : Program σ α → σ → Option (α × σ)
  | .done a, s => some (a, s)
  | .region ready update next, s => if ready s then (next s).runAlone (update s) else none

@[simp] theorem runAlone_done (a : α) (s : σ) :
    (Program.done a : Program σ α).runAlone s = some (a, s) := rfl

theorem runAlone_bind (p : Program σ α) (f : α → Program σ β) (s : σ) :
    (p >>= f).runAlone s = (p.runAlone s).bind fun (a, t) => (f a).runAlone t := by
  induction p generalizing s with
  | done a => rfl
  | region ready update next ih =>
    rw [region_bind, runAlone, runAlone]
    split
    · exact ih s (update s)
    · rfl

@[simp] theorem runAlone_act (f : σ → α × σ) (s : σ) : (act f).runAlone s = some (f s) := rfl

@[simp] theorem runAlone_look (f : σ → α) (s : σ) : (look f).runAlone s = some (f s, s) := rfl

/-- The call comes to its end with a result, whatever becomes of the state
between two of its regions. It is listed which state each region found. -/
inductive Amid : Program σ α → List σ → α → Prop
  | done (a : α) : Amid (.done a) [] a
  | region {ready : σ → Bool} {update : σ → σ} {next : σ → Program σ α} {found : List σ} {a : α}
    (s : σ) (enabled : ready s = true) (rest : Amid (next s) found a) :
    Amid (.region ready update next) (s :: found) a

theorem amid_done {a b : α} {found : List σ} (ran : Amid (.done a : Program σ α) found b) :
    b = a ∧ found = [] := by
  cases ran
  exact ⟨rfl, rfl⟩

theorem amid_region {ready : σ → Bool} {update : σ → σ} {next : σ → Program σ α} {found : List σ}
    {a : α} (ran : Amid (.region ready update next) found a) :
    ∃ s rest, found = s :: rest ∧ ready s = true ∧ Amid (next s) rest a := by
  cases ran with
  | region s enabled rest => exact ⟨s, _, rfl, enabled, rest⟩

/-- A call in sequence finds what its parts find, the states of the first before
those of the second, with any steps of others in between. -/
theorem amid_bind {p : Program σ α} {f : α → Program σ β} {found : List σ} {b : β}
    (ran : Amid (p >>= f) found b) :
    ∃ a first second, found = first ++ second ∧ Amid p first a ∧ Amid (f a) second b := by
  induction p generalizing found with
  | done a => exact ⟨a, [], found, rfl, .done a, ran⟩
  | region ready update next ih =>
    obtain ⟨s, rest, rfl, enabled, ran⟩ := amid_region ran
    obtain ⟨a, first, second, rfl, before, after⟩ := ih s ran
    exact ⟨a, s :: first, second, rfl, .region s enabled before, after⟩

theorem amid_map {p : Program σ α} {f : α → β} {found : List σ} {b : β}
    (ran : Amid (f <$> p) found b) : ∃ a, b = f a ∧ Amid p found a := by
  obtain ⟨a, first, second, rfl, inner, last⟩ := amid_bind ran
  obtain ⟨rfl, rfl⟩ := amid_done last
  exact ⟨a, rfl, (List.append_nil first).symm ▸ inner⟩

theorem amid_act {f : σ → α × σ} {found : List σ} {a : α} (ran : Amid (act f) found a) :
    ∃ s, found = [s] ∧ a = (f s).1 := by
  obtain ⟨s, rest, rfl, _, ran⟩ := amid_region ran
  obtain ⟨rfl, rfl⟩ := amid_done ran
  exact ⟨s, rfl, rfl⟩

theorem amid_look {f : σ → α} {found : List σ} {a : α} (ran : Amid (look f) found a) :
    ∃ s, found = [s] ∧ a = f s := amid_act ran

end Program

/-- The shared state and what is left of each call. -/
structure Pool (ι σ α : Type) where
  state : σ
  threads : ι → Program σ α

/-- A turn: whose region ran, which state it found and what is left of that call. -/
structure Turn (ι σ α : Type) where
  thread : ι
  found : σ
  left : Program σ α

def Turn.reply? (turn : Turn ι σ α) : Option α :=
  match turn.left with
  | .done a => some a
  | .region .. => none

namespace Pool
variable [DecidableEq ι]

inductive Step : Pool ι σ α → Turn ι σ α → Pool ι σ α → Prop
  | region {s : σ} {threads : ι → Program σ α} {ready : σ → Bool} {update : σ → σ}
    {next : σ → Program σ α} (i : ι) (running : threads i = .region ready update next)
    (enabled : ready s = true) :
    Step ⟨s, threads⟩ ⟨i, s, next s⟩ ⟨update s, Function.update threads i (next s)⟩

/-- Any number of turns, each taken by any call that is ready. -/
inductive Run : Pool ι σ α → List (Turn ι σ α) → Pool ι σ α → Prop
  | refl (pool : Pool ι σ α) : Run pool [] pool
  | step {a b c : Pool ι σ α} {turn : Turn ι σ α} {turns : List (Turn ι σ α)}
    (first : Step a turn b) (rest : Run b turns c) : Run a (turn :: turns) c

theorem Run.append {a b c : Pool ι σ α} {first second : List (Turn ι σ α)} (run : Run a first b)
    (more : Run b second c) : Run a (first ++ second) c := by
  induction run with
  | refl => exact more
  | step one rest ih => exact .step one (ih more)

theorem Run.invariant {P : Pool ι σ α → Prop} {a b : Pool ι σ α} {turns : List (Turn ι σ α)}
    (kept : ∀ {x turn y}, Step x turn y → P x → P y) (run : Run a turns b) (start : P a) :
    P b := by
  induction run with
  | refl => exact start
  | step first rest ih => exact ih (kept first start)

def foundBy (i : ι) (turns : List (Turn ι σ α)) : List σ :=
  (turns.filter fun turn => turn.thread = i).map Turn.found

/-- Each call of a run is a call amid the others. -/
theorem Run.amid {a b : Pool ι σ α} {turns : List (Turn ι σ α)} (run : Run a turns b) {i : ι}
    {result : α} (returned : b.threads i = .done result) :
    (a.threads i).Amid (foundBy i turns) result := by
  induction run with
  | refl pool =>
    rw [returned]
    exact .done result
  | step first rest ih =>
    have later := ih returned
    cases first with
    | region j running enabled =>
      by_cases same : j = i
      · subst same
        simp only [Function.update_self] at later
        simp only [running, foundBy, List.filter_cons, decide_true, if_true, List.map_cons]
        exact .region _ enabled later
      · simp only [Function.update_of_ne (Ne.symm same)] at later
        simpa [foundBy, List.filter_cons, same] using later

end Pool

/-- Every region of the call is of one kind, as long as the states it finds are
of this world, and the result is as it should be. -/
inductive Program.Every (kind : (σ → Bool) → (σ → σ) → Prop) (world : σ → Prop) (post : α → Prop) :
    Program σ α → Prop
  | done {a : α} (ends : post a) : Every kind world post (.done a)
  | region {ready : σ → Bool} {update : σ → σ} {next : σ → Program σ α} (does : kind ready update)
    (rest : ∀ s, world s → ready s = true → Every kind world post (next s)) :
    Every kind world post (.region ready update next)

namespace Program.Every
variable {kind other : (σ → Bool) → (σ → σ) → Prop} {world wider : σ → Prop} {post more : α → Prop}
  {last : β → Prop} {p : Program σ α}

theorem bind {f : α → Program σ β} (first : p.Every kind world post)
    (second : ∀ a, post a → (f a).Every kind world last) : (p >>= f).Every kind world last := by
  induction first with
  | done ends => exact second _ ends
  | region does rest ih => exact .region does ih

theorem mono (every : p.Every kind wider post)
    (kinds : ∀ {ready update}, kind ready update → other ready update)
    (worlds : ∀ s, world s → wider s) (posts : ∀ a, post a → more a) :
    p.Every other world more := by
  induction every with
  | done ends => exact .done (posts _ ends)
  | region does rest ih => exact .region (kinds does) fun s here => ih s (worlds s here)

theorem await {ready : σ → Bool} {f : σ → α × σ} (does : kind ready fun s => (f s).2)
    (ends : ∀ s, world s → ready s = true → post (f s).1) :
    (await ready f).Every kind world post :=
  .region does fun s here enabled => .done (ends s here enabled)

theorem act {f : σ → α × σ} (does : kind (fun _ => true) fun s => (f s).2)
    (ends : ∀ s, world s → post (f s).1) : (act f).Every kind world post :=
  .region does fun s here _ => .done (ends s here)

theorem ite {c : Prop} [Decidable c] {q : Program σ α} (yes : c → p.Every kind world post)
    (no : ¬c → q.Every kind world post) : (if c then p else q).Every kind world post := by
  split
  · exact yes ‹c›
  · exact no ‹¬c›

end Program.Every

/-- A call that draws at most one ticket while the state is calm: the region that
moves the counter is its last and returns what the ticket is good for. A call
that ends without a ticket returns nothing that is wanted. -/
inductive Program.Draws (calm : σ → Prop) (wanted : α → Bool) (counter : σ → κ) (advance : κ → κ)
    (reply : κ → α) : Program σ α → Prop
  | pass {a : α} (unwanted : wanted a = false) : Draws calm wanted counter advance reply (.done a)
  | wait {ready : σ → Bool} {update : σ → σ} {next : σ → Program σ α}
    (keeps : ∀ s, calm s → ready s = true → counter (update s) = counter s)
    (rest : ∀ s, calm s → ready s = true → Draws calm wanted counter advance reply (next s)) :
    Draws calm wanted counter advance reply (.region ready update next)
  | draw {ready : σ → Bool} {update : σ → σ} {next : σ → Program σ α}
    (moves : ∀ s, calm s → ready s = true → counter (update s) = advance (counter s))
    (last : ∀ s, calm s → ready s = true → next s = .done (reply (counter s))) :
    Draws calm wanted counter advance reply (.region ready update next)

def Spares (counter : σ → κ) (ready : σ → Bool) (update : σ → σ) : Prop :=
  ∀ s, ready s = true → counter (update s) = counter s

def Program.Leaves (counter : σ → κ) : Program σ α → Prop :=
  Every (Spares counter) (fun _ => True) fun _ => True

/-- A call that leaves the counter alone may come before the draw. -/
theorem Program.Leaves.draws {counter : σ → κ} {calm : σ → Prop} {wanted : α → Bool}
    {advance : κ → κ} {reply : κ → α} {p : Program σ β} {f : β → Program σ α}
    (first : p.Leaves counter) (second : ∀ b, (f b).Draws calm wanted counter advance reply) :
    (p >>= f).Draws calm wanted counter advance reply := by
  induction first with
  | done => exact second _
  | region does rest ih =>
    exact .wait (fun s _ enabled => does s enabled) fun s _ enabled => ih s trivial enabled

namespace Pool
variable [DecidableEq ι] {counter : σ → κ} {calm : σ → Prop} {wanted : α → Bool} {advance : κ → κ}
  {reply : κ → α} {drawer : ι → Bool}

/-- The calls divide into those that draw from the counter, each of which draws once
or has returned, and those that never move it. -/
def Queued (calm : σ → Prop) (wanted : α → Bool) (counter : σ → κ) (advance : κ → κ) (reply : κ → α)
    (drawer : ι → Bool) (threads : ι → Program σ α) : Prop :=
  ∀ i, if drawer i then
      (threads i).Draws calm wanted counter advance reply ∨ ∃ a, threads i = .done a
    else (threads i).Leaves counter

/-- The wanted replies of the drawers, in the order of their last turns. -/
def replies (drawer : ι → Bool) (wanted : α → Bool) (turns : List (Turn ι σ α)) : List α :=
  ((turns.filter fun turn => drawer turn.thread).filterMap Turn.reply?).filter wanted

omit [DecidableEq ι] in
theorem replies_cons (drawer : ι → Bool) (wanted : α → Bool) (turn : Turn ι σ α)
    (rest : List (Turn ι σ α)) :
    replies drawer wanted (turn :: rest) =
      replies drawer wanted [turn] ++ replies drawer wanted rest := by
  rw [replies, ← List.singleton_append, List.filter_append, List.filterMap_append,
    List.filter_append]
  rfl

theorem Queued.update {threads : ι → Program σ α}
    (queued : Queued calm wanted counter advance reply drawer threads) {i : ι} {p : Program σ α}
    (own : if drawer i then p.Draws calm wanted counter advance reply ∨ ∃ a, p = .done a
      else p.Leaves counter) :
    Queued calm wanted counter advance reply drawer (Function.update threads i p) := by
  intro j
  by_cases same : j = i
  · subst same
    simpa using own
  · simpa [Function.update_of_ne same] using queued j

/-- One turn: nothing wanted is returned, or the next ticket is, and drawn. -/
theorem Step.ticket {a b : Pool ι σ α} {turn : Turn ι σ α} (step : Step a turn b)
    (good : ∀ k, wanted (reply k) = true)
    (queued : Queued calm wanted counter advance reply drawer a.threads)
    (still : calm turn.found) :
    Queued calm wanted counter advance reply drawer b.threads ∧
      ((replies drawer wanted [turn] = [] ∧ counter b.state = counter a.state) ∨
        (replies drawer wanted [turn] = [reply (counter a.state)] ∧
          counter b.state = advance (counter a.state))) := by
  cases step with
  | @region s threads ready update next i running enabled =>
    have own := queued i
    simp only [running] at own
    cases role : drawer i with
    | false =>
      simp only [role, Bool.false_eq_true, if_false] at own
      cases own with
      | region does rest =>
        have more : (next s).Leaves counter := rest s trivial enabled
        refine ⟨queued.update (by simpa [role] using more), .inl ⟨?_, does s enabled⟩⟩
        simp [replies, role]
    | true =>
      simp only [role, if_true, reduceCtorEq, exists_false, or_false] at own
      cases own with
      | wait keeps rest =>
        have more := rest s still enabled
        refine ⟨queued.update (by simp [role, more]), .inl ⟨?_, keeps s still enabled⟩⟩
        cases left : next s with
        | done a =>
          rw [left] at more
          cases more with
          | pass unwanted => simp [replies, role, Turn.reply?, unwanted]
        | region => simp [replies, role, Turn.reply?]
      | draw moves last =>
        have now := last s still enabled
        refine ⟨queued.update (by simp [role, now]), .inr ⟨?_, moves s still enabled⟩⟩
        simp [replies, role, Turn.reply?, now, good]

/-- No ticket is lost and none is handed out twice: in the order in which the
drawers return, their wanted replies are those of the tickets from the counter on. -/
theorem Run.tickets {a b : Pool ι σ α} {turns : List (Turn ι σ α)} (run : Run a turns b)
    (good : ∀ k, wanted (reply k) = true)
    (queued : Queued calm wanted counter advance reply drawer a.threads)
    (still : ∀ turn ∈ turns, calm turn.found) :
    ∃ n, counter b.state = advance^[n] (counter a.state) ∧
      replies drawer wanted turns =
        (List.range n).map fun k => reply (advance^[k] (counter a.state)) := by
  induction run with
  | refl pool => exact ⟨0, rfl, rfl⟩
  | @step a m b turn rest first later ih =>
    obtain ⟨queued, drawn⟩ := first.ticket good queued (still turn List.mem_cons_self)
    obtain ⟨n, counted, listed⟩ := ih queued fun turn member =>
      still turn (List.mem_cons_of_mem _ member)
    rcases drawn with ⟨none, same⟩ | ⟨one, moved⟩
    · refine ⟨n, ?_, ?_⟩
      · rw [counted, same]
      · rw [replies_cons, none, listed, same, List.nil_append]
    · refine ⟨n + 1, ?_, ?_⟩
      · rw [counted, moved, Function.iterate_succ_apply]
      · rw [replies_cons, one, listed, moved, List.range_succ_eq_map, List.map_cons, List.map_map]
        rfl

/-- A call that runs alone takes its turns one after the other. -/
theorem run_alone {s t : σ} {threads : ι → Program σ α} {i : ι} {a : α}
    (alone : (threads i).runAlone s = some (a, t)) :
    ∃ turns, Run ⟨s, threads⟩ turns ⟨t, Function.update threads i (.done a)⟩ := by
  induction running : threads i generalizing s threads with
  | done b =>
    rw [running] at alone
    cases alone
    exact ⟨[], by simpa [← running] using Run.refl _⟩
  | region ready update next ih =>
    rw [running, Program.runAlone] at alone
    split at alone
    · rename_i enabled
      obtain ⟨turns, run⟩ := @ih s (update s) (Function.update threads i (next s)) (by simpa) (by simp)
      rw [Function.update_idem] at run
      exact ⟨_, .step (.region i running enabled) run⟩
    · contradiction

end Pool

/-- What may be left of a call after one more region. -/
def Program.Left (p : Program σ α) : Program σ α → Prop
  | .done _ => False
  | .region _ _ next => ∃ s, p = next s

theorem Program.left_wellFounded : WellFounded (@Program.Left σ α) := by
  refine ⟨fun p => ?_⟩
  induction p with
  | done a => exact ⟨_, fun q left => left.elim⟩
  | region ready update next ih =>
    refine ⟨_, fun q left => ?_⟩
    obtain ⟨s, rfl⟩ := left
    exact ih s

namespace Pool
variable [DecidableEq ι] [Fintype ι]

def remaining (threads : ι → Program σ α) : Multiset (Program σ α) :=
  Finset.univ.val.map threads

theorem remaining_update (threads : ι → Program σ α) (i : ι) (p : Program σ α) :
    remaining (Function.update threads i p) = {p} + (Finset.univ.val.erase i).map threads := by
  have apart : ∀ j ∈ (Finset.univ.val.erase i : Multiset ι), j ≠ i := by
    rintro j member rfl
    exact Finset.univ.nodup.notMem_erase member
  rw [remaining, ← Multiset.cons_erase (Finset.mem_univ_val i), Multiset.map_cons,
    Function.update_self, Multiset.erase_cons_head, Multiset.singleton_add]
  refine congrArg _ (Multiset.map_congr rfl fun j member => ?_)
  exact Function.update_of_ne (apart j member) _ _

theorem Step.remaining {a b : Pool ι σ α} {turn : Turn ι σ α} (step : Step a turn b) :
    Relation.CutExpand Program.Left (remaining b.threads) (remaining a.threads) := by
  cases step with
  | @region s threads ready update next i running enabled =>
    have before := remaining_update threads i (threads i)
    rw [Function.update_eq_self] at before
    rw [before, remaining_update, running]
    exact Relation.cutExpand_single_add ⟨s, rfl⟩ _

/-- Finitely many calls, each of them finite, have no infinite schedule: a turn
takes one region off one of the calls, whatever the others have done to the
state. -/
theorem step_wellFounded : WellFounded fun b a : Pool ι σ α => ∃ turn, Step a turn b :=
  Subrelation.wf (fun ⟨_, step⟩ => step.remaining)
    (InvImage.wf (fun pool : Pool ι σ α => remaining pool.threads)
      Program.left_wellFounded.cutExpand)

/-- A schedule can be carried on until no call can take a turn. -/
theorem exists_final (pool : Pool ι σ α) :
    ∃ turns final, Run pool turns final ∧ ∀ turn next, ¬ Step final turn next := by
  induction (@step_wellFounded ι σ α _ _).apply pool with
  | intro pool _ ih =>
  by_cases stuck : ∃ turn next, Step pool turn next
  · obtain ⟨turn, next, first⟩ := stuck
    obtain ⟨turns, final, run, ended⟩ := ih next ⟨turn, first⟩
    exact ⟨turn :: turns, final, .step first run, ended⟩
  · push Not at stuck
    exact ⟨[], pool, .refl pool, stuck⟩

end Pool
end Foundation
