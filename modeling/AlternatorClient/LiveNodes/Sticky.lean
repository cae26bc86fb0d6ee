import AlternatorClient.LiveNodes
import AlternatorClient.KeyRouteAffinity.Canonical

/-! What `StickyQuarantinedNodeForHash` offers: nothing, or a Quarantined node
that would be first for the hash if it were Active, and then the assignment of
the hash is that node. -/
namespace AlternatorClient
open Foundation

namespace NodeHealthStore
variable {store : NodeHealthStore} {u : Url}

theorem not_active_of_quarantined (quarantined : u ∈ store.getQuarantinedNodes) :
    u ∉ store.getActiveNodes := by
  obtain ⟨enabled, quarantined⟩ := mem_getQuarantinedNodes.mp quarantined
  intro active
  have same := state_unique quarantined ((mem_getActiveNodes enabled).mp active)
  contradiction

theorem not_down_of_quarantined (quarantined : u ∈ store.getQuarantinedNodes) :
    u ∉ store.getDownNodes := by
  intro down
  have same := state_unique (mem_getQuarantinedNodes.mp quarantined).2 (mem_getDownNodes.mp down).2
  contradiction

theorem not_down_of_active (active : u ∈ store.getActiveNodes) : u ∉ store.getDownNodes := by
  intro down
  obtain ⟨enabled, down⟩ := mem_getDownNodes.mp down
  have same := state_unique ((mem_getActiveNodes enabled).mp active) down
  contradiction

end NodeHealthStore

theorem firstNodeWithSeed_singleton (u : Url) (seed : Int64) :
    firstNodeWithSeed [u] seed = .ok u := by
  have single : sortAndDedupeNodes [u] = [u] := rfl
  have one : Int32.ofNat [u].length = 1 := rfl
  simp only [firstNodeWithSeed, single, List.isEmpty_cons, Bool.false_eq_true, if_false, one,
    GoRandom.int31n_one]
  rfl

/-- Of two nodes a seed prefers the smaller one or the greater one, whichever
they are. -/
theorem firstNodeWithSeed_pair (seed : Int64) :
    (∀ u v : Url, u.toString < v.toString →
        firstNodeWithSeed [u, v] seed = .ok u ∧ firstNodeWithSeed [v, u] seed = .ok u) ∨
      ∀ u v : Url, u.toString < v.toString →
        firstNodeWithSeed [u, v] seed = .ok v ∧ firstNodeWithSeed [v, u] seed = .ok v := by
  obtain ⟨i, next, drawn, low, high⟩ := GoRandom.int31n_range (GoRandom.ofSeed seed) 2 (by decide)
  have sorted {u v : Url} (less : u.toString < v.toString) :
      sortAndDedupeNodes [u, v] = [u, v] ∧ sortAndDedupeNodes [v, u] = [u, v] := by
    have ascending : Ascending Url.toString [u, v] := by simpa [Ascending] using less
    have sorted : sortAndDedupeNodes [u, v] = [u, v] := ascending.sortUnique_eq
    refine ⟨sorted, ?_⟩
    rw [← sorted]
    refine sortUnique_congr (ascending.separates.mono ?_) ?_
    · simp
    · simp [or_comm]
  have either : i = 0 ∨ i = 1 := by
    have two : (2 : Int32).toInt = 2 := rfl
    omega
  rcases either with rfl | rfl
  · left
    intro u v less
    simp [firstNodeWithSeed, sorted less, drawn]
  · right
    intro u v less
    simp [firstNodeWithSeed, sorted less, drawn]

/-- Only an oversized list makes the draw throw: the bound handed to `Int31n` is the
size as a 32-bit integer, which below 2^31 nodes is the size itself. -/
theorem firstNodeWithSeed_returns {nodes : List Url} (small : nodes.length < 2 ^ 31)
    (seed : Int64) :
    ∃ u, firstNodeWithSeed nodes seed = .ok u := by
  have shorter : (sortAndDedupeNodes nodes).length ≤ nodes.length := sortUnique_length_le nodes
  simp only [firstNodeWithSeed]
  split
  · exact ⟨_, rfl⟩
  · rename_i some
    have size := Int32.toInt_ofNat_of_lt (lt_of_le_of_lt shorter small)
    have positive : 0 < (sortAndDedupeNodes nodes).length :=
      List.length_pos_iff.mpr fun none => some (List.isEmpty_iff.mpr none)
    obtain ⟨v, next, drawn, _⟩ := GoRandom.int31n_range (GoRandom.ofSeed seed)
      (Int32.ofNat (sortAndDedupeNodes nodes).length) (by omega)
    rw [drawn]
    exact ⟨_, rfl⟩

theorem quarantinedNodeIsFirstForHash_true {node : Url} {active : List Url} {hash : Int64} :
    quarantinedNodeIsFirstForHash node active hash = .ok true ↔
      firstNodeWithSeed (active ++ [node]) hash = .ok node := by
  simp only [quarantinedNodeIsFirstForHash]
  cases firstNodeWithSeed (active ++ [node]) hash with
  | error error => simp [Except.map]
  | ok first => simp [Except.map]

namespace LiveNodes

def assigned (s : LiveNodes) (hash : Int64) : Option Url :=
  (s.quarantineByHash.lookup hash.toInt).map Prod.snd

theorem assigned_assign (s : LiveNodes) (hash other : Int64) (node : Url) :
    assigned { s with quarantineByHash := s.quarantineByHash.assign hash node } other =
      if other = hash then some node else s.assigned other := by
  simp only [assigned]
  rw [OrderedMap.lookup_assign]
  by_cases same : other = hash
  · simp [same]
  · simp [same, Int64.toInt_inj]

theorem assigned_erase (s : LiveNodes) (hash other : Int64) :
    assigned { s with quarantineByHash := s.quarantineByHash.erase hash.toInt } other =
      if other = hash then none else s.assigned other := by
  have erased : (s.quarantineByHash.erase hash.toInt).lookup other.toInt =
      if other.toInt = hash.toInt then none else s.quarantineByHash.lookup other.toInt := by
    convert s.quarantineByHash.lookup_erase hash.toInt other.toInt
  simp only [assigned, erased, Int64.toInt_inj]
  split <;> rfl

theorem assigned_remove (s : LiveNodes) (node : Url) (hash : Int64) :
    (s.removeQuarantineHashAssignmentsForNode node).assigned hash =
      (s.assigned hash).filter fun held => decide (held ≠ node) := by
  simp only [assigned, removeQuarantineHashAssignmentsForNode, OrderedMap.lookup_eraseIf]
  cases s.quarantineByHash.lookup hash.toInt with
  | none => rfl
  | some entry => by_cases same : entry.2 = node <;> simp [Option.filter, same]

/-- What may be offered for a hash, and the assignment that is left. -/
inductive Offered (store : NodeHealthStore) (hash : Int64) (active : List Url) (t : LiveNodes) :
    Except Error Url → Prop
  | node (q : Url) (quarantined : q ∈ store.getQuarantinedNodes)
      (first : quarantinedNodeIsFirstForHash q active hash = .ok true)
      (held : t.assigned hash = some q) : Offered store hash active t (.ok q)
  | nothing (free : t.assigned hash = none) : Offered store hash active t (.ok {})
  | threw (error : Error) (q : Url)
      (raised : quarantinedNodeIsFirstForHash q active hash = .error error)
      (held : ∀ q, t.assigned hash = some q → q ∈ store.getQuarantinedNodes) :
      Offered store hash active t (.error error)

variable {config : Config} {hash : Int64} {active : List Url}

theorem offered_sample {s : LiveNodes} (free : s.assigned hash = none) :
    Offered s.healthStore hash active (s.sampleQuarantinedNodeForHash config hash active).2
      (s.sampleQuarantinedNodeForHash config hash active).1 := by
  obtain ⟨plan, tried⟩ := s.shouldTryQuarantinedNode_eq config active.isEmpty
  simp only [sampleQuarantinedNodeForHash, tried]
  split
  · split
    · exact .nothing free
    · rename_i some
      have quarantined : s.getQuarantinedNodes ≠ [] := fun none => some (List.isEmpty_iff.mpr none)
      split
      · rename_i raised
        exact .threw _ _ raised fun q held => absurd (free.symm.trans held) (by simp)
      · exact .nothing free
      · rename_i first
        refine .node _ (getD_mod_mem quarantined _) first ?_
        exact (assigned_assign _ hash hash _).trans (if_pos rfl)
  · exact .nothing free

theorem offered_sticky (s : LiveNodes) :
    Offered s.healthStore hash active (s.stickyQuarantinedNodeForHash config hash active).2
      (s.stickyQuarantinedNodeForHash config hash active).1 := by
  simp only [stickyQuarantinedNodeForHash]
  split
  · rename_i absent
    exact offered_sample (by simp [assigned, absent])
  · rename_i key q found
    have held : s.assigned hash = some q := by simp [assigned, found]
    split
    · rename_i quarantined
      split
      · rename_i raised
        apply Offered.threw _ q raised
        intro other same
        rw [held] at same
        cases same
        exact quarantined
      · exact .nothing ((assigned_erase s hash hash).trans (if_pos rfl))
      · rename_i first
        exact .node q quarantined first held
    · have freed :
          assigned { s with quarantineByHash := s.quarantineByHash.erase hash.toInt } hash = none :=
        (assigned_erase s hash hash).trans (if_pos rfl)
      exact offered_sample freed

/-- Without an active node the offer is never empty while a node is Quarantined. -/
theorem offered_without_active {s : LiveNodes} (some : s.getQuarantinedNodes ≠ []) :
    ∃ q ∈ s.getQuarantinedNodes, (s.stickyQuarantinedNodeForHash config hash []).1 = .ok q := by
  have first (q : Url) : quarantinedNodeIsFirstForHash q [] hash = .ok true :=
    quarantinedNodeIsFirstForHash_true.mpr (firstNodeWithSeed_singleton q hash)
  have sampled {t : LiveNodes} (same : t.healthStore = s.healthStore) :
      ∃ q ∈ s.getQuarantinedNodes, (t.sampleQuarantinedNodeForHash config hash []).1 = .ok q := by
    have quarantined : t.getQuarantinedNodes = s.getQuarantinedNodes := by
      rw [getQuarantinedNodes, same, getQuarantinedNodes]
    simp only [sampleQuarantinedNodeForHash, shouldTryQuarantinedNode, quarantined,
      List.isEmpty_eq_false_iff.mpr some, Bool.false_eq_true, if_false, List.isEmpty_nil, if_true,
      first]
    exact ⟨_, getD_mod_mem some _, rfl⟩
  simp only [stickyQuarantinedNodeForHash]
  split
  · exact sampled rfl
  · rename_i key q found
    split
    · rename_i quarantined
      simp only [first]
      exact ⟨q, quarantined, rfl⟩
    · exact sampled rfl

/-- With no node in quarantine there is nothing to offer. -/
theorem offered_without_quarantined {s : LiveNodes} (none : s.getQuarantinedNodes = []) :
    (s.stickyQuarantinedNodeForHash config hash active).1 = .ok {} := by
  have sampled {t : LiveNodes} (same : t.healthStore = s.healthStore) :
      (t.sampleQuarantinedNodeForHash config hash active).1 = .ok {} := by
    have quarantined : t.getQuarantinedNodes = [] := by
      rw [← none, getQuarantinedNodes, same, getQuarantinedNodes]
    simp [sampleQuarantinedNodeForHash, shouldTryQuarantinedNode, quarantined]
  simp only [stickyQuarantinedNodeForHash, none, List.not_mem_nil, if_false]
  split
  · exact sampled rfl
  · exact sampled rfl

theorem sticky_returns (small : active.length + 1 < 2 ^ 31) (s : LiveNodes) :
    ∃ q, (s.stickyQuarantinedNodeForHash config hash active).1 = .ok q := by
  have offered := @offered_sticky config hash active s
  generalize (s.stickyQuarantinedNodeForHash config hash active).1 = result at offered ⊢
  cases offered with
  | node q => exact ⟨q, rfl⟩
  | nothing => exact ⟨_, rfl⟩
  | threw error q raised =>
    obtain ⟨u, drawn⟩ := @firstNodeWithSeed_returns (active ++ [q]) (by simpa using small) hash
    simp [quarantinedNodeIsFirstForHash, drawn, Except.map] at raised

/-- A plan for one hash leaves the assignments of the others. -/
theorem assigned_other (s : LiveNodes) {other : Int64} (different : other ≠ hash) :
    (s.getQueryPlanNodesForHash config hash).2.assigned other = s.assigned other := by
  have sampled (t : LiveNodes) (active : List Url) (same : t.assigned other = s.assigned other) :
      (t.sampleQuarantinedNodeForHash config hash active).2.assigned other = s.assigned other := by
    obtain ⟨plan, tried⟩ := t.shouldTryQuarantinedNode_eq config active.isEmpty
    simp only [sampleQuarantinedNodeForHash, tried]
    split
    · split
      · exact same
      · split
        · exact same
        · exact same
        · exact ((assigned_assign _ hash other _).trans (if_neg different)).trans same
    · exact same
  have erased := (assigned_erase s hash other).trans (if_neg different)
  rw [getQueryPlanNodesForHash_state]
  simp only [stickyQuarantinedNodeForHash]
  split
  · exact sampled s _ rfl
  · split
    · split
      · rfl
      · exact erased
      · rfl
    · exact sampled _ _ erased

end LiveNodes
end AlternatorClient
