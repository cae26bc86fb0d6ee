import AlternatorClient.LiveNodes.Discovery
import AlternatorClient.LiveNodes.Sticky
import AlternatorClient.Foundation.Rotation

/-! `NextNode` called again and again. Its three counters drive a rotation over
the active nodes that gives every so many turns to a Quarantined one. -/
namespace AlternatorClient
open Foundation

def Config.sampleInterval (config : Config) : Nat :=
  max 1 config.nodeHealth.quarantineTrafficInterval.toNat

def LiveNodes.counters (s : LiveNodes) : Rotation.Counters where
  attempts := s.quarantinePlanIndex.toNat
  regular := s.nextNodeIndex.toNat
  sampled := s.quarantineNodeIndex.toNat

theorem sampleInterval_eq (config : Config) :
    (if config.nodeHealth.quarantineTrafficInterval = 0 then 1
      else config.nodeHealth.quarantineTrafficInterval).toNat = config.sampleInterval := by
  rw [Config.sampleInterval]
  split
  · rename_i zero
    rw [zero]
    rfl
  · rename_i positive
    have : config.nodeHealth.quarantineTrafficInterval.toNat ≠ 0 := by
      intro zero
      exact positive (UInt32.toNat_inj.mp zero)
    omega

theorem toNat_succ {n : UInt64} (room : n.toNat + 1 < 2 ^ 64) : (n + 1).toNat = n.toNat + 1 := by
  rw [UInt64.toNat_add]
  exact Nat.mod_eq_of_lt room

namespace LiveNodes
variable {config : Config} {s : LiveNodes}

theorem shouldTryQuarantinedNode_none (none : s.getQuarantinedNodes = []) :
    s.shouldTryQuarantinedNode config false = (false, s) := by
  simp [shouldTryQuarantinedNode, none]

theorem shouldTryQuarantinedNode_some (some : s.getQuarantinedNodes ≠ []) :
    s.shouldTryQuarantinedNode config false =
      (decide ((s.quarantinePlanIndex + 1).toNat % config.sampleInterval = 0),
        { s with quarantinePlanIndex := s.quarantinePlanIndex + 1 }) := by
  simp only [shouldTryQuarantinedNode, List.isEmpty_eq_false_iff.mpr some, Bool.false_eq_true,
    if_false, sampleInterval_eq]

theorem nextQuarantinedNode_some (some : s.getQuarantinedNodes ≠ []) :
    s.nextQuarantinedNode =
      (cyclic s.getQuarantinedNodes {} s.quarantineNodeIndex.toNat,
        { s with quarantineNodeIndex := s.quarantineNodeIndex + 1 }) := by
  simp only [nextQuarantinedNode, List.isEmpty_eq_false_iff.mpr some, Bool.false_eq_true,
    if_false]
  rfl

end LiveNodes

namespace Session
variable {config : Config} {s : Session}

/-- The results of that many calls of `NextNode` with nothing in between. -/
def nextNodes (config : Config) (s : Session) : Nat → List Url × Session
  | 0 => ([], s)
  | n + 1 =>
    let (results, t) := s.nextNodes config n
    let (node, t) := t.nextNode config
    (results ++ [node], t)

-- stated here since unfolding the recursion compares the sessions of both sides
theorem nextNodes_zero (config : Config) (s : Session) : s.nextNodes config 0 = ([], s) := rfl

theorem nextNodes_succ (config : Config) (s : Session) (n : Nat) :
    s.nextNodes config (n + 1) =
      ((s.nextNodes config n).1 ++ [((s.nextNodes config n).2.nextNode config).1],
        ((s.nextNodes config n).2.nextNode config).2) := by
  rfl

theorem markActivity_nodes (config : Config) (s : Session) :
    ∃ update, (s.markActivity config).nodes =
      { s.nodes with nextUpdate := update, lastActivity := s.clock 0 } :=
  s.nodes.markActivity_eq config (s.clock 0)

/-- What is left of `NextNode` once activity is marked and some node is active. -/
def takeTurn (config : Config) (candidates : List Url) (s : Session) : Url × Session :=
  let (try_, s) := s.act (LiveNodes.shouldTryQuarantinedNode config false)
  if try_ then
    let (quarantined, s) := s.act LiveNodes.nextQuarantinedNode
    if !quarantined.empty then (quarantined, s) else s.takeCandidate candidates
  else s.takeCandidate candidates

theorem nextNode_eq (active : s.nodes.getActiveNodes ≠ []) :
    s.nextNode config = (s.markActivity config).takeTurn config s.nodes.getActiveNodes := by
  obtain ⟨update, marked⟩ := s.markActivity_nodes config
  have same : (s.markActivity config).nodes.getActiveNodes = s.nodes.getActiveNodes := by
    rw [marked]
    rfl
  simp only [nextNode, takeTurn, same, List.isEmpty_eq_false_iff.mpr active, Bool.false_eq_true,
    if_false]

section
variable {n : LiveNodes} {candidates : List Url} (held : s.nodes = n) (active : candidates ≠ [])
include held active

theorem takeTurn_none (none : n.getQuarantinedNodes = []) :
    (s.takeTurn config candidates).1 = cyclic candidates {} n.nextNodeIndex.toNat ∧
      (s.takeTurn config candidates).2.nodes =
        { n with nextNodeIndex := n.nextNodeIndex + 1 } := by
  simp only [takeTurn, act, held, LiveNodes.shouldTryQuarantinedNode_none none, Bool.false_eq_true,
    if_false, takeCandidate, List.isEmpty_eq_false_iff.mpr active]
  exact ⟨rfl, trivial⟩

variable (some : n.getQuarantinedNodes ≠ [])
include some

omit active in
theorem takeTurn_sampled (present : ∀ u ∈ n.getQuarantinedNodes, u.empty = false)
    (due : (n.quarantinePlanIndex + 1).toNat % config.sampleInterval = 0) :
    (s.takeTurn config candidates).1 =
        cyclic n.getQuarantinedNodes {} n.quarantineNodeIndex.toNat ∧
      (s.takeTurn config candidates).2.nodes =
        { n with
          quarantinePlanIndex := n.quarantinePlanIndex + 1
          quarantineNodeIndex := n.quarantineNodeIndex + 1 } := by
  have visible := present _ (cyclic_mem some {} n.quarantineNodeIndex.toNat)
  have sampled : LiveNodes.nextQuarantinedNode
      { n with quarantinePlanIndex := n.quarantinePlanIndex + 1 } =
      (cyclic n.getQuarantinedNodes {} n.quarantineNodeIndex.toNat,
        { n with
          quarantinePlanIndex := n.quarantinePlanIndex + 1
          quarantineNodeIndex := n.quarantineNodeIndex + 1 }) :=
    LiveNodes.nextQuarantinedNode_some some
  simp only [takeTurn, act, held, LiveNodes.shouldTryQuarantinedNode_some some, due, decide_true,
    if_true, sampled, visible, Bool.not_false]
  exact ⟨trivial, trivial⟩

theorem takeTurn_passed
    (passed : ¬ (n.quarantinePlanIndex + 1).toNat % config.sampleInterval = 0) :
    (s.takeTurn config candidates).1 = cyclic candidates {} n.nextNodeIndex.toNat ∧
      (s.takeTurn config candidates).2.nodes =
        { n with
          quarantinePlanIndex := n.quarantinePlanIndex + 1
          nextNodeIndex := n.nextNodeIndex + 1 } := by
  simp only [takeTurn, act, held, LiveNodes.shouldTryQuarantinedNode_some some, passed,
    decide_false, Bool.false_eq_true, if_false, takeCandidate,
    List.isEmpty_eq_false_iff.mpr active]
  exact ⟨rfl, trivial⟩

end

theorem markActivity_frame (config : Config) (s : Session) :
    (s.markActivity config).nodes.healthStore = s.nodes.healthStore ∧
      (s.markActivity config).nodes.nextNodeIndex = s.nodes.nextNodeIndex ∧
      (s.markActivity config).nodes.quarantinePlanIndex = s.nodes.quarantinePlanIndex ∧
      (s.markActivity config).nodes.quarantineNodeIndex = s.nodes.quarantineNodeIndex := by
  obtain ⟨update, marked⟩ := s.markActivity_nodes config
  rw [marked]
  exact ⟨rfl, rfl, rfl, rfl⟩

section
variable (active : s.nodes.getActiveNodes ≠ [])
include active

theorem nextNode_none (none : s.nodes.getQuarantinedNodes = []) :
    (s.nextNode config).1 = cyclic s.nodes.getActiveNodes {} s.nodes.nextNodeIndex.toNat ∧
      (s.nextNode config).2.nodes.healthStore = s.nodes.healthStore ∧
      (s.nextNode config).2.nodes.nextNodeIndex = s.nodes.nextNodeIndex + 1 := by
  obtain ⟨store, next, _⟩ := s.markActivity_frame config
  have quarantined : (s.markActivity config).nodes.getQuarantinedNodes = [] := by
    rw [LiveNodes.getQuarantinedNodes, store]
    exact none
  obtain ⟨result, after⟩ := @takeTurn_none config _ _ _ rfl active quarantined
  rw [nextNode_eq active, result, after, ← next]
  exact ⟨rfl, store, rfl⟩

variable (some : s.nodes.getQuarantinedNodes ≠ [])
  (present : ∀ u ∈ s.nodes.getQuarantinedNodes, u.empty = false)
include some present

/-- With a Quarantined node the advanced counter decides whose turn it is. -/
theorem nextNode_cases :
    (s.nextNode config).2.nodes.healthStore = s.nodes.healthStore ∧
    (s.nextNode config).2.nodes.quarantinePlanIndex = s.nodes.quarantinePlanIndex + 1 ∧
    (((s.nodes.quarantinePlanIndex + 1).toNat % config.sampleInterval = 0 ∧
      (s.nextNode config).1 =
        cyclic s.nodes.getQuarantinedNodes {} s.nodes.quarantineNodeIndex.toNat ∧
      (s.nextNode config).2.nodes.nextNodeIndex = s.nodes.nextNodeIndex ∧
      (s.nextNode config).2.nodes.quarantineNodeIndex = s.nodes.quarantineNodeIndex + 1) ∨
    (¬ (s.nodes.quarantinePlanIndex + 1).toNat % config.sampleInterval = 0 ∧
      (s.nextNode config).1 = cyclic s.nodes.getActiveNodes {} s.nodes.nextNodeIndex.toNat ∧
      (s.nextNode config).2.nodes.nextNodeIndex = s.nodes.nextNodeIndex + 1 ∧
      (s.nextNode config).2.nodes.quarantineNodeIndex = s.nodes.quarantineNodeIndex)) := by
  obtain ⟨store, next, plan, sample⟩ := s.markActivity_frame config
  have quarantined : (s.markActivity config).nodes.getQuarantinedNodes =
      s.nodes.getQuarantinedNodes := congrArg NodeHealthStore.getQuarantinedNodes store
  have some' : (s.markActivity config).nodes.getQuarantinedNodes ≠ [] := quarantined ▸ some
  rw [nextNode_eq active]
  by_cases due : (s.nodes.quarantinePlanIndex + 1).toNat % config.sampleInterval = 0
  · obtain ⟨result, after⟩ := takeTurn_sampled rfl some' (quarantined ▸ present)
      (by rw [plan]; exact due)
    rw [result, after, quarantined, ← next, ← plan, ← sample]
    exact ⟨store, rfl, .inl ⟨plan ▸ due, rfl, rfl, rfl⟩⟩
  · obtain ⟨result, after⟩ := takeTurn_passed rfl active some' (by rw [plan]; exact due)
    rw [result, after, ← next, ← plan, ← sample]
    exact ⟨store, rfl, .inr ⟨plan ▸ due, rfl, rfl, rfl⟩⟩

/-- The advanced counter of call `k` decides call `k`, also where it wraps. -/
theorem nextNodes_sampled_iff (m : Nat) :
    (s.nextNodes config m).1.length = m ∧
    (s.nextNodes config m).2.nodes.healthStore = s.nodes.healthStore ∧
    (s.nextNodes config m).2.nodes.quarantinePlanIndex =
      s.nodes.quarantinePlanIndex + UInt64.ofNat m ∧
    ∀ k u, (s.nextNodes config m).1[k]? = .some u →
      (u ∈ s.nodes.getQuarantinedNodes ↔
        (s.nodes.quarantinePlanIndex + UInt64.ofNat (k + 1)).toNat % config.sampleInterval = 0) := by
  induction m with
  | zero => exact ⟨rfl, rfl, by simp [nextNodes_zero], by simp [nextNodes_zero]⟩
  | succ m ih =>
    obtain ⟨length, store, plan, before⟩ := ih
    have quarantined : (s.nextNodes config m).2.nodes.getQuarantinedNodes =
        s.nodes.getQuarantinedNodes := congrArg NodeHealthStore.getQuarantinedNodes store
    have actives : (s.nextNodes config m).2.nodes.getActiveNodes = s.nodes.getActiveNodes :=
      congrArg NodeHealthStore.getActiveNodes store
    have advanced : s.nodes.quarantinePlanIndex + UInt64.ofNat m + 1 =
        s.nodes.quarantinePlanIndex + UInt64.ofNat (m + 1) := by
      rw [UInt64.add_assoc, UInt64.ofNat_add]
      rfl
    obtain ⟨store', plan', turn⟩ := @nextNode_cases config (s.nextNodes config m).2
      (actives ▸ active) (quarantined ▸ some) (quarantined ▸ present)
    rw [quarantined, actives, plan, advanced] at turn
    refine ⟨by simp [nextNodes_succ, length], store'.trans store, plan'.trans (by rw [plan, advanced]),
      ?_⟩
    intro k u result
    simp only [nextNodes_succ] at result
    by_cases earlier : k < m
    · rw [List.getElem?_append_left (by omega)] at result
      exact before k u result
    · obtain rfl : k = m := by
        have := (List.getElem?_eq_some_iff.mp result).1
        simp only [List.length_append, List.length_singleton] at this
        omega
      rw [List.getElem?_append_right (by omega), length, Nat.sub_self] at result
      obtain rfl : ((s.nextNodes config k).2.nextNode config).1 = u := by simpa using result
      rcases turn with ⟨due, given, _⟩ | ⟨passed, given, _⟩
      · simp only [given, due, iff_true]
        exact cyclic_mem some _ _
      · simp only [given, passed, iff_false]
        exact fun sampled => NodeHealthStore.not_active_of_quarantined sampled
          (cyclic_mem active _ _)

/-- While no counter wraps, the calls are the turns of a rotation. -/
theorem nextNodes_turns (config : Config) {m : Nat} (attempts : s.nodes.quarantinePlanIndex.toNat + m < 2 ^ 64)
    (regular : s.nodes.nextNodeIndex.toNat + m < 2 ^ 64)
    (sampled : s.nodes.quarantineNodeIndex.toNat + m < 2 ^ 64) :
    (s.nextNodes config m).2.nodes.healthStore = s.nodes.healthStore ∧
    Rotation.turns {} config.sampleInterval s.nodes.getActiveNodes s.nodes.getQuarantinedNodes
      s.nodes.counters m = ((s.nextNodes config m).1, (s.nextNodes config m).2.nodes.counters) := by
  induction m with
  | zero => exact ⟨rfl, rfl⟩
  | succ m ih =>
    obtain ⟨store, turns⟩ := ih (by omega) (by omega) (by omega)
    have few := Rotation.sampleCount_le config.sampleInterval s.nodes.counters m
    have reached := (congrArg Prod.snd turns).symm.trans
      (congrArg Prod.snd (Rotation.turns_eq _ _ _ m))
    simp only [LiveNodes.counters, Rotation.Counters.mk.injEq] at reached
    obtain ⟨plan, next, sample⟩ := reached
    have quarantined : (s.nextNodes config m).2.nodes.getQuarantinedNodes =
        s.nodes.getQuarantinedNodes := congrArg NodeHealthStore.getQuarantinedNodes store
    have actives : (s.nextNodes config m).2.nodes.getActiveNodes = s.nodes.getActiveNodes :=
      congrArg NodeHealthStore.getActiveNodes store
    obtain ⟨store', plan', turn⟩ := @nextNode_cases config (s.nextNodes config m).2
      (actives ▸ active) (quarantined ▸ some) (quarantined ▸ present)
    rw [quarantined, actives] at turn
    refine ⟨store'.trans store, ?_⟩
    have attempt := toNat_succ (show (s.nextNodes config m).2.nodes.quarantinePlanIndex.toNat + 1 <
      2 ^ 64 by omega)
    simp only [Rotation.turns, turns, nextNodes_succ]
    rcases turn with ⟨due, given, next', sample'⟩ | ⟨passed, given, next', sample'⟩
    · have last := toNat_succ (show (s.nextNodes config m).2.nodes.quarantineNodeIndex.toNat + 1 <
        2 ^ 64 by simp only [LiveNodes.counters] at few; omega)
      rw [attempt] at due
      simp only [Rotation.turn, LiveNodes.counters, given, plan', next', sample', attempt, last,
        due, if_true]
    · have last := toNat_succ (show (s.nextNodes config m).2.nodes.nextNodeIndex.toNat + 1 <
        2 ^ 64 by omega)
      rw [attempt] at passed
      simp only [Rotation.turn, LiveNodes.counters, given, plan', next', sample', attempt, last,
        passed, if_false]

/-- The calls one by one: until a counter wraps, call `k` returns what turn `k` of
the rotation gives, whatever was called before the first of them. -/
theorem nextNodes_given (config : Config) {m : Nat}
    (attempts : s.nodes.quarantinePlanIndex.toNat + m < 2 ^ 64)
    (regular : s.nodes.nextNodeIndex.toNat + m < 2 ^ 64)
    (sampled : s.nodes.quarantineNodeIndex.toNat + m < 2 ^ 64) :
    (s.nextNodes config m).1 = (List.range m).map (Rotation.given {} config.sampleInterval
      s.nodes.getActiveNodes s.nodes.getQuarantinedNodes s.nodes.counters) := by
  have turns := (nextNodes_turns active some present config attempts regular sampled).2
  rw [Rotation.turns_eq] at turns
  exact (congrArg Prod.fst turns).symm

end

theorem nextNodes_none (config : Config) (active : s.nodes.getActiveNodes ≠ [])
    (none : s.nodes.getQuarantinedNodes = []) {m : Nat}
    (regular : s.nodes.nextNodeIndex.toNat + m < 2 ^ 64) :
    (s.nextNodes config m).2.nodes.healthStore = s.nodes.healthStore ∧
    (s.nextNodes config m).2.nodes.nextNodeIndex.toNat = s.nodes.nextNodeIndex.toNat + m ∧
    (s.nextNodes config m).1 =
      cycle s.nodes.getActiveNodes {} s.nodes.nextNodeIndex.toNat m := by
  induction m with
  | zero => exact ⟨rfl, rfl, rfl⟩
  | succ m ih =>
    obtain ⟨store, next, results⟩ := ih (by omega)
    have quarantined : (s.nextNodes config m).2.nodes.getQuarantinedNodes = [] :=
      (congrArg NodeHealthStore.getQuarantinedNodes store).trans none
    have actives : (s.nextNodes config m).2.nodes.getActiveNodes = s.nodes.getActiveNodes :=
      congrArg NodeHealthStore.getActiveNodes store
    obtain ⟨given, store', next'⟩ := @nextNode_none config (s.nextNodes config m).2
      (actives ▸ active) quarantined
    have advanced := toNat_succ (show (s.nextNodes config m).2.nodes.nextNodeIndex.toNat + 1 <
      2 ^ 64 by omega)
    refine ⟨store'.trans store, ?_, ?_⟩
    · simp only [nextNodes_succ, next', advanced]
      omega
    · simp only [nextNodes_succ, results, given, cycle_succ, actives, next]

end Session

/-- The calls split into the rotations of the two kinds of nodes. -/
theorem Session.nextNodes_split (config : Config) {s : Session} {m : Nat}
    (active : s.nodes.getActiveNodes ≠ [])
    (present : ∀ u ∈ s.nodes.getQuarantinedNodes, u.empty = false)
    (attempts : s.nodes.quarantinePlanIndex.toNat + m < 2 ^ 64)
    (regular : s.nodes.nextNodeIndex.toNat + m < 2 ^ 64)
    (sampled : s.nodes.quarantineNodeIndex.toNat + m < 2 ^ 64) :
    ∃ samples, (s.nextNodes config m).1.countP (· ∈ s.nodes.getQuarantinedNodes) = samples ∧
      (s.nextNodes config m).1.filter (· ∈ s.nodes.getQuarantinedNodes) =
        cycle s.nodes.getQuarantinedNodes {} s.nodes.quarantineNodeIndex.toNat samples ∧
      (s.nextNodes config m).1.filter (· ∉ s.nodes.getQuarantinedNodes) =
        cycle s.nodes.getActiveNodes {} s.nodes.nextNodeIndex.toNat (m - samples) := by
  have disjoint : ∀ u ∈ s.nodes.getQuarantinedNodes, u ∉ s.nodes.getActiveNodes :=
    fun u => NodeHealthStore.not_active_of_quarantined
  by_cases none : s.nodes.getQuarantinedNodes = []
  · obtain ⟨_, _, results⟩ := Session.nextNodes_none config active none regular
    refine ⟨0, ?_, ?_, ?_⟩
    · simp [none]
    · simp [none, cycle]
    · simp [none, results]
  · have results := Session.nextNodes_given active none present config attempts regular sampled
    have samples := Rotation.filter_sampled {} config.sampleInterval s.nodes.counters none active
      disjoint m
    have rest := Rotation.filter_regular {} config.sampleInterval s.nodes.counters none active
      disjoint m
    rw [← results] at samples rest
    refine ⟨_, ?_, samples, rest⟩
    rw [List.countP_eq_length_filter, samples]
    simp [cycle]

/-- However long it is called, `NextNode` takes the active nodes in turn and
gives every `N`-th call, and no other, to the next Quarantined node. -/
theorem nextNode_rotates (config : Config) (s : Session) (m : Nat)
    (active : s.nodes.getActiveNodes ≠ [])
    (present : ∀ u ∈ s.nodes.getQuarantinedNodes, u.empty = false) :
    let A := s.nodes.getActiveNodes
    let Q := s.nodes.getQuarantinedNodes
    let N := config.sampleInterval
    let results := (s.nextNodes config m).1
    -- the advanced counter decides, also where it wraps
    (Q ≠ [] → ∀ k u, results[k]? = some u →
      (u ∈ Q ↔ N ∣ (s.nodes.quarantinePlanIndex + UInt64.ofNat (k + 1)).toNat)) ∧
    -- fewer than 2^64 calls in total: no counter wraps
    (s.nodes.quarantinePlanIndex.toNat + m < 2 ^ 64 → s.nodes.nextNodeIndex.toNat + m < 2 ^ 64 →
      s.nodes.quarantineNodeIndex.toNat + m < 2 ^ 64 →
      results.length = m ∧
      (Q = [] → results = cycle A {} s.nodes.nextNodeIndex.toNat m) ∧
      (Q ≠ [] → ∀ k u, results[k]? = some u →
        (u ∈ Q ↔ N ∣ s.nodes.quarantinePlanIndex.toNat + k + 1)) ∧
      (Q ≠ [] → ∀ start, start + N ≤ m → ((results.drop start).take N).countP (· ∈ Q) = 1) ∧
      results.filter (· ∈ Q) =
        cycle Q {} s.nodes.quarantineNodeIndex.toNat (results.countP (· ∈ Q)) ∧
      results.filter (· ∉ Q) =
        cycle A {} s.nodes.nextNodeIndex.toNat (m - results.countP (· ∈ Q)) ∧
      (∀ u ∈ A, ∀ v ∈ A, results.count u ≤ results.count v + 1) ∧
      ∀ u ∈ Q, ∀ v ∈ Q, results.count u ≤ results.count v + 1) := by
  intro A Q N results
  have disjoint : ∀ u ∈ Q, u ∉ A := fun u => NodeHealthStore.not_active_of_quarantined
  constructor
  · intro some k u result
    rw [Nat.dvd_iff_mod_eq_zero]
    exact (Session.nextNodes_sampled_iff active some present m).2.2.2 k u result
  · intro attempts regular sampled
    obtain ⟨samples, counted, first, second⟩ :=
      Session.nextNodes_split config active present attempts regular sampled
    have given : Q ≠ [] → results = (List.range m).map (Rotation.given {} N A Q s.nodes.counters) :=
      fun some => Session.nextNodes_given active some present config attempts regular sampled
    refine ⟨?_, ?_, ?_, ?_, ?_, ?_, ?_, ?_⟩
    · by_cases none : Q = []
      · have plain : results = _ := (Session.nextNodes_none config active none regular).2.2
        simp [plain, cycle]
      · simp [given none]
    · intro none
      exact (Session.nextNodes_none config active none regular).2.2
    · intro some k u result
      rw [given some, List.getElem?_map, Option.map_eq_some_iff] at result
      obtain ⟨j, inside, rfl⟩ := result
      obtain rfl : k = j := by
        obtain ⟨_, same⟩ := List.getElem?_eq_some_iff.mp inside
        simpa using same
      rw [Nat.dvd_iff_mod_eq_zero]
      exact Rotation.given_sampled_iff {} N s.nodes.counters some active disjoint k
    · intro some start inside
      rw [given some]
      exact Rotation.window_count {} N s.nodes.counters some active disjoint
        (Nat.le_max_left 1 _) inside
    · rw [counted]
      exact first
    · rw [counted]
      exact second
    · apply count_fair_of_filter second s.nodes.healthStore.getActiveNodes_ascending.nodup
      intro u member
      simpa using fun sampled => disjoint u sampled member
    · apply count_fair_of_filter first s.nodes.healthStore.getQuarantinedNodes_ascending.nodup
      intro u member
      simpa using member

/-- Fifteen calls of a client with one active and one Quarantined node: any ten
in a row hold one sample. -/
theorem nextNode_rotates_tenth :
    let a := ({} : Config).nodeUrl (bytes "a")
    let b := ({} : Config).nodeUrl (bytes "b")
    let store := (NodeHealthStore.new {} [a, b]).reportNodeResult b .connectionFailure
    let nodes : LiveNodes :=
      { initialNodes := [a, b], liveNodes := [a, b]
        healthStore := store.reportNodeResult b .success, nextUpdate := 0, lastActivity := 0 }
    let s := Session.still nodes ⟨fun _ _ => .error []⟩
    s.nodes.getQuarantinedNodes ≠ [] ∧
      ((((s.nextNodes {} 15).1).drop 3).take 10).countP (· ∈ s.nodes.getQuarantinedNodes) = 1 := by
  intro a b store nodes s
  have some : s.nodes.getQuarantinedNodes ≠ [] := by decide +kernel
  have rotates := (nextNode_rotates {} s 15 (by decide +kernel) (by decide +kernel)).2
    (by decide) (by decide) (by decide)
  exact ⟨some, rotates.2.2.2.1 some 3 (by decide)⟩

end AlternatorClient
