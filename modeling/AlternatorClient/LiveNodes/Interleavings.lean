import AlternatorClient.LiveNodes.Alone
import AlternatorClient.LiveNodes.Sticky
import AlternatorClient.LiveNodes.Affinity

/-! What a call hands out while other threads report, refresh, probe and plan.
Nothing is assumed about them: between two regions of the call the state may
become anything, and each fact names the state that the call found. -/
namespace AlternatorClient
open Foundation Program

namespace Call
variable {α : Type} {config : Config} {found : List Shared}

theorem amid_read {f : LiveNodes → α} {a : α} (ran : Amid (read f) found a) :
    ∃ s, found = [s] ∧ a = f s.nodes := amid_look ran

theorem amid_locked {f : LiveNodes → α × LiveNodes} {a : α} (ran : Amid (locked f) found a) :
    ∃ s, found = [s] ∧ a = (f s.nodes).1 := by
  obtain ⟨s, rest, rfl, _, ran⟩ := amid_region ran
  obtain ⟨rfl, rfl⟩ := amid_done ran
  exact ⟨s, rfl, rfl⟩

theorem amid_atomically {f : LiveNodes → α × LiveNodes} {a : α}
    (ran : Amid (atomically f) found a) : ∃ s, found = [s] ∧ a = (f s.nodes).1 := amid_act ran

/-- Without an active node only the lack of a Quarantined one ends the trial. -/
theorem amid_untried (ran : Amid (shouldTryQuarantinedNode config true) found false) :
    ∃ s ∈ found, s.nodes.getQuarantinedNodes = [] := by
  obtain ⟨nodes, first, second, rfl, looked, ran⟩ := amid_bind ran
  obtain ⟨s, rfl, rfl⟩ := amid_read looked
  refine ⟨s, by simp, ?_⟩
  by_contra some
  simp only [List.isEmpty_eq_false_iff.mpr some, Bool.false_eq_true, if_false, if_true] at ran
  exact absurd (amid_done ran).1 (by simp)

theorem amid_nextQuarantinedNode {u : Url} (ran : Amid nextQuarantinedNode found u) :
    ∃ s ∈ found, u ∈ s.nodes.getQuarantinedNodes ∨
      u = {} ∧ s.nodes.getQuarantinedNodes = [] := by
  obtain ⟨nodes, first, second, rfl, looked, ran⟩ := amid_bind ran
  obtain ⟨s, rfl, rfl⟩ := amid_read looked
  refine ⟨s, by simp, ?_⟩
  split at ran
  · rename_i none
    exact .inr ⟨(amid_done ran).1, List.isEmpty_iff.mp none⟩
  · rename_i some
    obtain ⟨index, _, _, rfl, _, ran⟩ := amid_bind ran
    rw [(amid_done ran).1]
    exact .inl (getD_mod_mem (by simpa using some) _)

theorem amid_takeCandidate {candidates : List Url} {u : Url}
    (ran : Amid (takeCandidate candidates) found u) :
    u ∈ candidates ∨ u = {} ∧ candidates = [] := by
  rw [takeCandidate] at ran
  split at ran
  · rename_i none
    exact .inr ⟨(amid_done ran).1, List.isEmpty_iff.mp none⟩
  · rename_i some
    obtain ⟨s, rfl, rfl⟩ := amid_atomically ran
    exact .inl (getD_mod_mem (by simpa using some) _)

/-- The candidates of `NextNode` are the Active nodes of one state it found. -/
theorem amid_candidatesOrProbe {s : Shared} {candidates : List Url}
    (ran : Amid (candidatesOrProbe s.nodes.getActiveNodes) found candidates) :
    ∃ t ∈ s :: found, candidates = t.nodes.getActiveNodes := by
  rw [candidatesOrProbe] at ran
  split at ran
  · obtain ⟨_, first, second, rfl, _, looked⟩ := amid_bind ran
    obtain ⟨t, rfl, rfl⟩ := amid_read looked
    exact ⟨t, by simp, rfl⟩
  · exact ⟨s, List.mem_cons_self, (amid_done ran).1⟩

/-- What `NextNode` returned, by the states it found: an Active or a Quarantined
node, or nothing after it saw no Active node and then no Quarantined one it
could name. -/
def Handed (found : List Shared) (u : Url) : Prop :=
  (∃ s ∈ found, u ∈ s.nodes.getActiveNodes) ∨ (∃ s ∈ found, u ∈ s.nodes.getQuarantinedNodes) ∨
  u = {} ∧ ∃ first second, found = first ++ second ∧
    (∃ s ∈ first, s.nodes.getActiveNodes = []) ∧
    ∃ s ∈ second, s.nodes.getQuarantinedNodes = [] ∨
      ∃ q ∈ s.nodes.getQuarantinedNodes, q.empty = true

theorem handed_chooseNode {candidates : List Url} {tried : Bool} {first trial last : List Shared}
    {u : Url} {s : Shared} (member : s ∈ first) (taken : candidates = s.nodes.getActiveNodes)
    (asked : Amid (shouldTryQuarantinedNode config candidates.isEmpty) trial tried)
    (ran : Amid (chooseNode candidates tried) last u) : Handed (first ++ (trial ++ last)) u := by
  have active : u ∈ candidates → Handed (first ++ (trial ++ last)) u := fun inside =>
    .inl ⟨s, List.mem_append_left _ member, taken ▸ inside⟩
  rw [chooseNode] at ran
  split at ran
  · obtain ⟨quarantined, early, late, rfl, offered, ran⟩ := amid_bind ran
    obtain ⟨t, found, offer⟩ := amid_nextQuarantinedNode offered
    have among : t ∈ trial ++ (early ++ late) := by simp [found]
    split at ran
    · rename_i named
      rw [(amid_done ran).1]
      rcases offer with inside | ⟨rfl, _⟩
      · exact .inr (.inl ⟨t, List.mem_append_right _ among, inside⟩)
      · simp at named
    · rename_i nameless
      rcases amid_takeCandidate ran with inside | ⟨rfl, none⟩
      · exact active inside
      · refine .inr (.inr ⟨rfl, first, _, rfl, ⟨s, member, by rw [← taken, none]⟩, t, among, ?_⟩)
        rcases offer with inside | ⟨_, missing⟩
        · exact .inr ⟨quarantined, inside, by simpa using nameless⟩
        · exact .inl missing
  · rename_i untried
    rcases amid_takeCandidate ran with inside | ⟨rfl, none⟩
    · exact active inside
    · rw [Bool.not_eq_true] at untried
      rw [untried, none] at asked
      obtain ⟨t, found, missing⟩ := amid_untried asked
      exact .inr (.inr ⟨rfl, first, _, rfl, ⟨s, member, by rw [← taken, none]⟩, t,
        List.mem_append_left _ found, .inl missing⟩)

theorem amid_nextNode {u : Url} (ran : Amid (nextNode config) found u) : Handed found u := by
  obtain ⟨_, marked, rest, rfl, _, ran⟩ := amid_bind ran
  obtain ⟨active, _, rest, rfl, looked, ran⟩ := amid_bind ran
  obtain ⟨s, rfl, rfl⟩ := amid_read looked
  obtain ⟨candidates, probed, rest, rfl, settled, ran⟩ := amid_bind ran
  obtain ⟨tried, trial, last, rfl, asked, ran⟩ := amid_bind ran
  obtain ⟨t, member, taken⟩ := amid_candidatesOrProbe settled
  have among : t ∈ marked ++ ([s] ++ probed) := by
    simpa using .inr (List.mem_cons.mp member)
  simpa [List.append_assoc] using handed_chooseNode among taken asked ran

/-- A plan is the Active nodes of one state it found and at most one node that
was Quarantined in one. -/
theorem amid_getQueryPlanNodes {plan : List Url} (ran : Amid (getQueryPlanNodes config) found plan) :
    ∃ s ∈ found, ∃ extra : List Url, extra.length ≤ 1 ∧
      (∀ q ∈ extra, q.empty = false ∧ ∃ t ∈ found, q ∈ t.nodes.getQuarantinedNodes) ∧
      plan = sortAndDedupeNodes (s.nodes.getActiveNodes ++ extra) := by
  obtain ⟨active, _, rest, rfl, looked, ran⟩ := amid_bind ran
  obtain ⟨s, rfl, rfl⟩ := amid_read looked
  obtain ⟨tried, trial, last, rfl, _, ran⟩ := amid_bind ran
  refine ⟨s, by simp, ?_⟩
  split at ran
  · obtain ⟨quarantined, early, late, rfl, offered, ran⟩ := amid_bind ran
    obtain ⟨t, found, offer⟩ := amid_nextQuarantinedNode offered
    rw [(amid_done ran).1]
    split
    · exact ⟨[], by simp, by simp, by simp⟩
    · rename_i named
      refine ⟨[quarantined], by simp, ?_, rfl⟩
      rcases offer with inside | ⟨rfl, _⟩
      · simp only [List.mem_singleton, forall_eq]
        exact ⟨by simpa using named, t, by simp [found], inside⟩
      · simp at named
  · exact ⟨[], by simp, by simp, by rw [(amid_done ran).1, List.append_nil]⟩

theorem of_heldAssignment {hash : Int64} {active quarantined : List Url} {nodes : LiveNodes} {q : Url}
    (returned : (heldAssignment hash active quarantined nodes).1 = some (.ok q))
    (named : q.empty = false) :
    q ∈ quarantined ∧ quarantinedNodeIsFirstForHash q active hash = .ok true := by
  simp only [heldAssignment] at returned
  repeat' split at returned
  all_goals simp only [Option.some.injEq, Except.ok.injEq, reduceCtorEq] at returned
  · simp [← returned] at named
  · subst returned
    exact ⟨‹_›, ‹_›⟩

/-- A newly sampled node was Quarantined when it was sampled. -/
theorem amid_sample {hash : Int64} {active : List Url} {q : Url}
    (ran : Amid (sampleQuarantinedNodeForHash config hash active) found (.ok q))
    (named : q.empty = false) :
    (∃ s ∈ found, q ∈ s.nodes.getQuarantinedNodes) ∧
      quarantinedNodeIsFirstForHash q active hash = .ok true := by
  have nothing : ∀ {states : List Shared}, ¬ Amid (.done (.ok {}) : Call (Except Error Url)) states
      (.ok q) := by
    intro states ran
    have same : q = {} := by simpa using (amid_done ran).1
    simp [same] at named
  obtain ⟨tried, trial, rest, rfl, _, ran⟩ := amid_bind ran
  split at ran
  · obtain ⟨nodes, _, rest, rfl, looked, ran⟩ := amid_bind ran
    obtain ⟨s, rfl, rfl⟩ := amid_read looked
    split at ran
    · exact absurd ran nothing
    · rename_i some
      obtain ⟨index, _, rest, rfl, _, ran⟩ := amid_bind ran
      simp only at ran
      split at ran
      · simpa using (amid_done ran).1
      · exact absurd ran nothing
      · rename_i first
        obtain ⟨t, rfl, same⟩ := amid_locked ran
        simp only [Except.ok.injEq] at same
        subst same
        exact ⟨⟨s, by simp, getD_mod_mem (by simpa using some) _⟩, first⟩
  · exact absurd ran nothing

/-- The node that goes first for a hash was Quarantined in a state the call
found, whatever assignment another thread made or dropped meanwhile. -/
theorem amid_sticky {hash : Int64} {active : List Url} {q : Url}
    (ran : Amid (stickyQuarantinedNodeForHash config hash active) found (.ok q))
    (named : q.empty = false) :
    (∃ s ∈ found, q ∈ s.nodes.getQuarantinedNodes) ∧
      quarantinedNodeIsFirstForHash q active hash = .ok true := by
  obtain ⟨quarantined, _, rest, rfl, looked, ran⟩ := amid_bind ran
  obtain ⟨s, rfl, rfl⟩ := amid_read looked
  obtain ⟨returned, _, rest, rfl, held, ran⟩ := amid_bind ran
  obtain ⟨t, rfl, kept⟩ := amid_locked held
  cases returned with
  | some result =>
    obtain ⟨rfl, rfl⟩ := amid_done ran
    obtain ⟨member, first⟩ := of_heldAssignment kept.symm named
    exact ⟨⟨s, by simp, member⟩, first⟩
  | none =>
    obtain ⟨⟨v, member, quarantined⟩, first⟩ := amid_sample ran named
    exact ⟨⟨v, by simp [member], quarantined⟩, first⟩

theorem amid_getQueryPlanNodesForHash {hash : Int64} {plan : List Url}
    (ran : Amid (getQueryPlanNodesForHash config hash) found (.ok plan)) :
    ∃ s ∈ found, ∃ front : List Url, front.length ≤ 1 ∧
      (∀ q ∈ front, (∃ t ∈ found, q ∈ t.nodes.getQuarantinedNodes) ∧
        quarantinedNodeIsFirstForHash q s.nodes.getActiveNodes hash = .ok true) ∧
      plan = front ++ s.nodes.getActiveNodes.filter fun u => !u.empty && !decide (u ∈ front) := by
  obtain ⟨active, _, rest, rfl, looked, ran⟩ := amid_bind ran
  obtain ⟨s, rfl, rfl⟩ := amid_read looked
  obtain ⟨result, sticky, last, rfl, held, ran⟩ := amid_bind ran
  have same := (amid_done ran).1
  cases result with
  | error error => simp [Except.map] at same
  | ok q =>
    simp only [Except.map, Except.ok.injEq] at same
    have distinct : s.nodes.getActiveNodes.Nodup :=
      s.nodes.healthStore.getActiveNodes_ascending.nodup
    rw [LiveNodes.sortAndDedupeNodes_active, appendUniqueNodes, appendFresh_eq_filter distinct]
      at same
    rw [LiveNodes.sortAndDedupeNodes_active] at held
    refine ⟨s, by simp, _, ?_, ?_, same⟩
    · split <;> simp
    · intro q' member
      split at member
      · contradiction
      · rename_i named
        rw [List.mem_singleton] at member
        subst member
        obtain ⟨⟨t, among, quarantined⟩, first⟩ := amid_sticky held (by simpa using named)
        exact ⟨⟨t, by simp [among], quarantined⟩, first⟩

end Call

section
variable {ι : Type} [DecidableEq ι]

/-- The threads at the start: each is about to make one call. -/
def Shared.calling (shared : Shared) (config : Config) (calls : ι → Operation) :
    Pool ι Shared Reply :=
  ⟨shared, fun i => (calls i).call config⟩

/-- A call of a pool is that operation amid the other threads. -/
theorem Shared.amid_call {config : Config} {calls : ι → Operation} {shared : Shared}
    {turns : List (Turn ι Shared Reply)} {pool : Pool ι Shared Reply} {i : ι} {reply : Reply}
    {operation : Operation} (run : Pool.Run (shared.calling config calls) turns pool)
    (called : calls i = operation) (returned : pool.threads i = .done reply) :
    Amid (operation.call config) (Pool.foundBy i turns) reply := by
  have ran : Amid ((calls i).call config) (Pool.foundBy i turns) reply := run.amid returned
  exact called ▸ ran

/-- In every interleaving `NextNode` returns a node that was Active or
Quarantined in a state that this very call found, or nothing after it found no
Active node and then no Quarantined one it could name. -/
theorem nextNode_among_threads (config : Config) (calls : ι → Operation) (shared : Shared)
    (turns : List (Turn ι Shared Reply)) (pool : Pool ι Shared Reply) (i : ι) (reply : Reply)
    (run : Pool.Run (shared.calling config calls) turns pool) (called : calls i = .nextNode)
    (returned : pool.threads i = .done reply) :
    ∃ u, reply = .url u ∧ Call.Handed (Pool.foundBy i turns) u := by
  obtain ⟨u, rfl, ran⟩ := amid_map (Shared.amid_call run called returned)
  exact ⟨u, rfl, Call.amid_nextNode ran⟩

/-- In every interleaving the plan for a hash is the Active nodes of one state
the call found, in order, after at most one node that was Quarantined in a state
the call found and goes first for the hash among them. -/
theorem plan_for_hash_among_threads (config : Config) (calls : ι → Operation) (shared : Shared)
    (turns : List (Turn ι Shared Reply)) (pool : Pool ι Shared Reply) (i : ι) (hash : Int64)
    (plan : List Url) (run : Pool.Run (shared.calling config calls) turns pool)
    (called : calls i = .getQueryPlanNodesForHash hash)
    (returned : pool.threads i = .done (.urls plan)) :
    ∃ s ∈ Pool.foundBy i turns, ∃ front : List Url, front.length ≤ 1 ∧
      (∀ q ∈ front, (∃ t ∈ Pool.foundBy i turns, q ∈ t.nodes.getQuarantinedNodes) ∧
        quarantinedNodeIsFirstForHash q s.nodes.getActiveNodes hash = .ok true) ∧
      plan = front ++ s.nodes.getActiveNodes.filter fun u => !u.empty && !decide (u ∈ front) := by
  obtain ⟨result, same, ran⟩ := amid_map (Shared.amid_call run called returned)
  cases result with
  | error error => simp [Reply.ofExcept] at same
  | ok nodes =>
    simp only [Reply.ofExcept, Reply.urls.injEq] at same
    subst same
    exact Call.amid_getQueryPlanNodesForHash ran

/-- In every interleaving a query plan is the Active nodes of one state the call
found and at most one node that was Quarantined in a state it found. -/
theorem plan_among_threads (config : Config) (calls : ι → Operation) (shared : Shared)
    (turns : List (Turn ι Shared Reply)) (pool : Pool ι Shared Reply) (i : ι) (reply : Reply)
    (run : Pool.Run (shared.calling config calls) turns pool)
    (called : calls i = .getQueryPlanNodes) (returned : pool.threads i = .done reply) :
    ∃ s ∈ Pool.foundBy i turns, ∃ extra : List Url, extra.length ≤ 1 ∧
      (∀ q ∈ extra, q.empty = false ∧
        ∃ t ∈ Pool.foundBy i turns, q ∈ t.nodes.getQuarantinedNodes) ∧
      reply = .urls (sortAndDedupeNodes (s.nodes.getActiveNodes ++ extra)) := by
  obtain ⟨plan, rfl, ran⟩ := amid_map (Shared.amid_call run called returned)
  obtain ⟨s, member, extra, short, sampled, rfl⟩ := Call.amid_getQueryPlanNodes ran
  exact ⟨s, member, extra, short, sampled, rfl⟩

end

def twoCallers (s : Session) (operation : Operation) : Pool Bool Shared Reply :=
  s.shared.calling {} fun _ => operation

/-- The one of them runs to its end before the other begins. -/
theorem twoCallers_run {s : Session} {operation : Operation} {reply : Reply} {t : Shared}
    (alone : (operation.call {}).runAlone s.shared = some (reply, t)) :
    ∃ turns pool, Pool.Run (twoCallers s operation) turns pool ∧
      pool.threads true = .done reply ∧ pool.state = t := by
  obtain ⟨turns, run⟩ := @Pool.run_alone Bool Shared Reply _ _ _ (twoCallers s operation).threads
    true _ alone
  exact ⟨turns, _, run, by simp, rfl⟩

theorem nextNode_among_two :
    ∃ turns pool, Pool.Run (twoCallers .couple .nextNode) turns pool ∧
      ∃ u, pool.threads true = .done (.url u) ∧ Call.Handed (Pool.foundBy true turns) u := by
  obtain ⟨turns, pool, run, returned, _⟩ := @twoCallers_run _ .nextNode _ _
    (Alone.nextNode.map Reply.url .couple)
  obtain ⟨u, same, handed⟩ :=
    nextNode_among_threads {} (fun _ => .nextNode) _ turns pool true _ run rfl returned
  exact ⟨turns, pool, run, u, same ▸ returned, handed⟩

theorem plan_for_hash_among_two :
    ∃ turns pool plan, Pool.Run (twoCallers .couple (.getQueryPlanNodesForHash 7)) turns pool ∧
      ∃ s ∈ Pool.foundBy true turns, ∃ front : List Url, front.length ≤ 1 ∧
        (∀ q ∈ front, (∃ t ∈ Pool.foundBy true turns, q ∈ t.nodes.getQuarantinedNodes) ∧
          quarantinedNodeIsFirstForHash q s.nodes.getActiveNodes 7 = .ok true) ∧
        plan =
          front ++ s.nodes.getActiveNodes.filter fun u => !u.empty && !decide (u ∈ front) := by
  have planned := LiveNodes.getQueryPlanNodesForHash_ok
    (@LiveNodes.offered_without_quarantined {} 7 _ Session.couple.nodes (by decide +kernel))
  obtain ⟨turns, pool, run, returned, _⟩ := @twoCallers_run _ (.getQueryPlanNodesForHash 7) _ _
    ((Alone.getQueryPlanNodesForHash 7).map (Reply.ofExcept Reply.urls) .couple)
  dsimp only [Session.act] at returned
  rw [planned] at returned
  exact ⟨turns, pool, _, run, plan_for_hash_among_threads {}
    (fun _ => .getQueryPlanNodesForHash 7) _ turns pool true 7 _ run rfl returned⟩

theorem plan_among_two :
    ∃ turns pool reply, Pool.Run (twoCallers .couple .getQueryPlanNodes) turns pool ∧
      ∃ s ∈ Pool.foundBy true turns, ∃ extra : List Url, extra.length ≤ 1 ∧
        (∀ q ∈ extra, q.empty = false ∧
          ∃ t ∈ Pool.foundBy true turns, q ∈ t.nodes.getQuarantinedNodes) ∧
        reply = Reply.urls (sortAndDedupeNodes (s.nodes.getActiveNodes ++ extra)) := by
  obtain ⟨turns, pool, run, returned, _⟩ := @twoCallers_run _ .getQueryPlanNodes _ _
    (Alone.getQueryPlanNodes.map Reply.urls .couple)
  exact ⟨turns, pool, _, run,
    plan_among_threads {} (fun _ => .getQueryPlanNodes) _ turns pool true _ run rfl returned⟩

end AlternatorClient
