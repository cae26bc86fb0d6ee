import AlternatorClient.LiveNodes.Operations
import AlternatorClient.LiveNodes.Scopes

/-! A refresh over the cluster scope asks every initial node once, in an order
drawn by the clock. Where the nodes answer by who they are and not by when they
are asked, the order is not to be seen afterwards. -/
namespace AlternatorClient
open Foundation

/-- A network whose answer depends on the endpoint only. -/
def Wire.steady (outcome : Url → Except Bytes HttpResponse) : Wire := ⟨fun _ => outcome⟩

def readOutcome (config : Config) (endpoint : Url) :
    Except Bytes HttpResponse → Except Error (List Url)
  | .error what => .error (.runtimeError what)
  | .ok response =>
    if response.statusCode ≠ 200 then
      .error (.httpStatusError (bytes "non-200 response from " ++ endpoint.toString)
        response.statusCode)
    else
      match parseJsonStringArray response.body with
      | .error error => .error (.invalidHttpResponseError error.what)
      | .ok hosts => .ok (toUrls hosts config)

/-- What a node answers a refresh of the cluster scope. -/
def clusterAnswer (config : Config) (outcome : Url → Except Bytes HttpResponse) (node : Url) :
    Except Error (List Url) :=
  readOutcome config (Session.localNodesEndpoint .cluster node)
    (outcome (Session.localNodesEndpoint .cluster node))

/-- The nodes of a valid answer with status 200, and none of any other. -/
def clusterList (config : Config) (outcome : Url → Except Bytes HttpResponse) (node : Url) :
    List Url :=
  (clusterAnswer config outcome node).toOption.getD []

def clusterReport (config : Config) (outcome : Url → Except Bytes HttpResponse) (node : Url) :
    Option (Url × NodeHealthObservation) :=
  match clusterAnswer config outcome node with
  | .error error => some (node, Session.discoveryObservation error)
  | .ok _ => none

namespace NodeHealthStore

/-- Reports about nodes of different text may change places. -/
theorem reportNodeResult_comm (store : NodeHealthStore) {u v : Url}
    (different : u.toString ≠ v.toString) (o p : NodeHealthObservation) :
    (store.reportNodeResult u o).reportNodeResult v p =
      (store.reportNodeResult v p).reportNodeResult u o := by
  cases disabled : store.config.disabled with
  | true => simp [reportNodeResult, disabled]
  | false =>
    have statuses : ((store.reportNodeResult u o).reportNodeResult v p).statuses =
        ((store.reportNodeResult v p).reportNodeResult u o).statuses := by
      apply OrderedMap.ext
      intro x
      have enabled : ∀ w q, (store.reportNodeResult w q).config.disabled = false := by
        simp [disabled]
      rw [lookup_reportNodeResult (enabled u o), lookup_reportNodeResult (enabled v p),
        lookup_reportNodeResult disabled, lookup_reportNodeResult disabled, Option.map_map,
        Option.map_map]
      congr 1
      funext entry
      by_cases first : x = u.toString
      · simp [first, different]
      · simp [first]
    have config : ((store.reportNodeResult u o).reportNodeResult v p).config =
        ((store.reportNodeResult v p).reportNodeResult u o).config := by simp
    generalize (store.reportNodeResult u o).reportNodeResult v p = left at statuses config ⊢
    generalize (store.reportNodeResult v p).reportNodeResult u o = right at statuses config ⊢
    cases left
    cases right
    simp_all

end NodeHealthStore

namespace QueryPlan

/-- A plan of the public constructor, whatever was drawn from it. -/
structure Drawn (plan : QueryPlan) : Prop where
  plain : plan.preferredNodes = []
  random : plan.deterministicOrder = false
  unsorted : plan.sortNodes = false

theorem Drawn.next_eq {plan : QueryPlan} (drawn : plan.Drawn) (some : plan.nodes ≠ []) :
    plan.next = { plan with prepared := true }.pickAndRemove := by
  rw [next_plain drawn.plain, prepare_unsorted drawn.unsorted]
  exact if_neg (by simpa using some)

theorem Drawn.next {plan after : QueryPlan} {u : Url} (drawn : plan.Drawn) (some : plan.nodes ≠ [])
    (returned : plan.next = .ok (u, after)) : after.Drawn := by
  rw [drawn.next_eq some] at returned
  simp only [pickAndRemove, drawn.random, Bool.false_eq_true, if_false] at returned
  split at returned
  · contradiction
  · cases returned
    exact ⟨drawn.plain, rfl, drawn.unsorted⟩

/-- The size is cast to `int32_t`, and this one becomes negative. -/
theorem Drawn.next_error {plan : QueryPlan} (drawn : plan.Drawn)
    (large : plan.nodes.length = 2 ^ 31) : ∃ error, plan.next = .error error := by
  have some : plan.nodes ≠ [] := by
    intro none
    simp [none] at large
  have negative : (Int32.ofNat (2 ^ 31)).toInt ≤ 0 := by decide
  rw [drawn.next_eq some]
  simp only [pickAndRemove, drawn.random, Bool.false_eq_true, if_false, large, GoRandom.int31n,
    dif_pos negative]
  exact ⟨_, rfl⟩

end QueryPlan

namespace Session
variable {config : Config} {outcome : Url → Except Bytes HttpResponse}

theorem getNodesFromEndpoint_steady {s : Session} (steady : s.wire = Wire.steady outcome)
    (endpoint : Url) :
    ∃ t, s.getNodesFromEndpoint config endpoint =
        (readOutcome config endpoint (outcome endpoint), t) ∧
      t.wire = Wire.steady outcome ∧ t.nodes = s.nodes := by
  obtain ⟨nodes, wire, clock, seeds, answers, trace⟩ := s
  obtain rfl : wire = Wire.steady outcome := steady
  simp only [getNodesFromEndpoint, Wire.get, Wire.steady, readOutcome]
  cases outcome endpoint with
  | error what => exact ⟨_, rfl, rfl, rfl⟩
  | ok response => exact ⟨_, rfl, rfl, rfl⟩

theorem reportNodeResult_frame (s : Session) (node : Url) (o : NodeHealthObservation) :
    (s.reportNodeResult config node o).wire = s.wire ∧
      (s.reportNodeResult config node o).nodes.liveNodes = s.nodes.liveNodes ∧
      (s.reportNodeResult config node o).nodes.healthStore =
        s.nodes.healthStore.reportNodeResult node o := by
  obtain ⟨update, marked⟩ := s.nodes.markActivity_eq config (s.clock 0)
  simp [reportNodeResult, markActivity, act, marked]

/-- What a cluster refresh has done once it asked some nodes in some order. -/
structure Contacted (config : Config) (outcome : Url → Except Bytes HttpResponse)
    (order discovered : List Url) (failed : Bool) (s t : Session)
    (result : Except Error (List Url)) : Prop where
  wire : t.wire = Wire.steady outcome
  liveNodes : t.nodes.liveNodes = s.nodes.liveNodes
  healthStore : t.nodes.healthStore =
    (order.filterMap (clusterReport config outcome)).foldl
      (fun store report => store.reportNodeResult report.1 report.2) s.nodes.healthStore
  result : ∃ last : Option Error,
    last.isSome = (failed || order.any fun node => (clusterReport config outcome node).isSome) ∧
    result = concludeScope (discovered ++ order.flatMap (clusterList config outcome)) last

theorem contacted_visitNodes {s : Session} (steady : s.wire = Wire.steady outcome)
    (order discovered : List Url) (last : Option Error) :
    Contacted config outcome order discovered last.isSome s
      (visitNodes config .cluster order discovered last s).2
      (visitNodes config .cluster order discovered last s).1 := by
  induction order generalizing s discovered last with
  | nil => exact ⟨steady, rfl, rfl, last, by simp, by simp [visitNodes]⟩
  | cons node rest ih =>
    obtain ⟨t, asked, wire, nodes⟩ := @getNodesFromEndpoint_steady config _ _ steady
      (localNodesEndpoint .cluster node)
    change _ = (clusterAnswer config outcome node, t) at asked
    rw [visitNodes, asked]
    cases answered : clusterAnswer config outcome node with
    | ok found =>
      have quiet : clusterReport config outcome node = none := by simp [clusterReport, answered]
      have lists : clusterList config outcome node = found := by
        simp [clusterList, answered, Except.toOption]
      -- an empty list adds nothing, so both branches go on alike
      have onward : Contacted config outcome (node :: rest) discovered last.isSome s
          (visitNodes config .cluster rest (discovered ++ found) last t).2
          (visitNodes config .cluster rest (discovered ++ found) last t).1 := by
        obtain ⟨steady', live, store, final, failed, result⟩ := ih wire (discovered ++ found) last
        refine ⟨steady', by rw [live, nodes], ?_, final, by simpa [quiet] using failed, ?_⟩
        · rw [store, nodes, List.filterMap_cons_none quiet]
        · rw [result, List.flatMap_cons, lists, List.append_assoc]
      have cluster : (!RoutingScopePtr.isCluster .cluster) = false := rfl
      simp only [cluster, Bool.false_eq_true, if_false]
      split
      · rename_i none
        rw [List.isEmpty_iff.mp none, List.append_nil] at onward
        exact onward
      · exact onward
    | error error =>
      have reported : clusterReport config outcome node =
          some (node, discoveryObservation error) := by
        simp [clusterReport, answered]
      have lists : clusterList config outcome node = [] := by
        simp [clusterList, answered, Except.toOption]
      obtain ⟨wire', live', store'⟩ :=
        @reportNodeResult_frame config t node (discoveryObservation error)
      obtain ⟨steady', live, store, final, failed, result⟩ :=
        ih (wire'.trans wire) discovered (some error)
      refine ⟨steady', by rw [live, live', nodes], ?_, final, by simpa [reported] using failed, ?_⟩
      · rw [store, store', nodes, List.filterMap_cons_some reported, List.foldl_cons]
      · rw [result, List.flatMap_cons, lists, List.nil_append]

/-- A plan too large to draw from ends the scope with an error, however far it
gets. -/
theorem visitPlan_oversized {plan : QueryPlan} (drawn : plan.Drawn)
    (present : ∀ u ∈ plan.nodes, u.empty = false) {excess : Nat}
    (size : plan.nodes.length = 2 ^ 31 + excess) {fuel : Nat} (enough : plan.nodes.length < fuel)
    (discovered : List Url) (last : Option Error) (s : Session) :
    ∃ error, (visitPlan config .cluster fuel plan discovered last s).1 = .error error := by
  induction excess generalizing plan fuel discovered last s with
  | zero =>
    obtain ⟨fuel, rfl⟩ : ∃ n, fuel = n + 1 := ⟨fuel - 1, by omega⟩
    obtain ⟨error, thrown⟩ := drawn.next_error size
    exact ⟨error, by simp [visitPlan, thrown]⟩
  | succ excess ih =>
    obtain ⟨fuel, rfl⟩ : ∃ n, fuel = n + 1 := ⟨fuel - 1, by omega⟩
    have some : plan.nodes ≠ [] := by
      intro none
      simp [none] at size
    rcases plan.next_cases with ⟨none, _⟩ | ⟨_, u, after, returned, perm⟩ | ⟨_, error, thrown⟩
    · contradiction
    · have visible : u.empty = false := present u (perm.subset List.mem_cons_self)
      have shorter := QueryPlan.next_length returned visible
      have onward := @ih after (drawn.next some returned)
        (fun v member => present v (perm.subset (List.mem_cons_of_mem _ member))) (by omega) fuel
        (by omega)
      have cluster : (!RoutingScopePtr.isCluster .cluster) = false := rfl
      simp only [visitPlan, returned, visible, cluster, Bool.false_eq_true, if_false]
      split
      · split
        · exact onward _ _ _
        · exact onward _ _ _
      · exact onward _ _ _
    · exact ⟨error, by simp [visitPlan, thrown]⟩

theorem getNodesForScope_cluster (s : Session) :
    s.getNodesForScope config .cluster =
      visitPlan config .cluster (s.nodes.initialNodes.length + 1)
        (QueryPlan.ofClock s.nodes.initialNodes s.takeSeed.1) [] none s.takeSeed.2 := rfl

/-- A cluster scope asks the initial nodes in some order. -/
theorem contacted_getNodesForScope {s : Session} (steady : s.wire = Wire.steady outcome)
    (present : ∀ u ∈ s.nodes.initialNodes, u.empty = false)
    (small : s.nodes.initialNodes.length < 2 ^ 31) :
    ∃ order, order.Perm s.nodes.initialNodes ∧
      Contacted config outcome order [] false s (s.getNodesForScope config .cluster).2
        (s.getNodesForScope config .cluster).1 := by
  obtain ⟨order, drained⟩ := @drainPlan_returns
    (QueryPlan.ofClock s.nodes.initialNodes s.takeSeed.1) small
  have visited : s.getNodesForScope config .cluster =
      visitNodes config .cluster order [] none s.takeSeed.2 :=
    s.getNodesForScope_cluster.trans (visitPlan_eq drained [] none s.takeSeed.2)
  obtain ⟨wire, live, store, result⟩ :=
    @contacted_visitNodes config outcome s.takeSeed.2 steady order [] none
  rw [visited]
  exact ⟨order, drainPlan_perm drained present, wire, live, store, result⟩

theorem getNodesForScope_oversized {s : Session}
    (present : ∀ u ∈ s.nodes.initialNodes, u.empty = false)
    (large : 2 ^ 31 ≤ s.nodes.initialNodes.length) :
    ∃ error, (s.getNodesForScope config .cluster).1 = .error error := by
  rw [getNodesForScope_cluster]
  exact @visitPlan_oversized config (QueryPlan.ofClock s.nodes.initialNodes s.takeSeed.1)
    ⟨rfl, rfl, rfl⟩ present (s.nodes.initialNodes.length - 2 ^ 31)
    (by simp only [QueryPlan.ofClock]; omega) _ (Nat.lt_succ_self _) [] none s.takeSeed.2

/-- Of two nodes asked, neither sees the other's report. -/
theorem foldl_clusterReport {left right : List Url} (perm : left.Perm right)
    (separated : Separates Url.toString left) (store : NodeHealthStore) :
    (left.filterMap (clusterReport config outcome)).foldl
        (fun store report => store.reportNodeResult report.1 report.2) store =
      (right.filterMap (clusterReport config outcome)).foldl
        (fun store report => store.reportNodeResult report.1 report.2) store := by
  have reports : ∀ report ∈ left.filterMap (clusterReport config outcome),
      report.1 ∈ left ∧ clusterReport config outcome report.1 = some report := by
    intro report member
    obtain ⟨node, asked, reported⟩ := List.mem_filterMap.mp member
    have named : report.1 = node := by
      simp only [clusterReport] at reported
      split at reported
      · cases reported
        rfl
      · contradiction
    rw [named]
    exact ⟨asked, reported⟩
  refine (perm.filterMap _).foldl_eq' ?_ store
  intro first one second other store
  obtain ⟨asked, reported⟩ := reports first one
  obtain ⟨asked', reported'⟩ := reports second other
  by_cases text : first.1.toString = second.1.toString
  · have node : first.1 = second.1 := separated asked asked' text
    have same : first = second := by
      rw [node, reported'] at reported
      exact (Option.some.inj reported).symm
    rw [same]
  · exact store.reportNodeResult_comm text first.2 second.2

theorem concludeScope_some {discovered : List Url} (some : discovered ≠ []) (last : Option Error) :
    concludeScope discovered last = .ok (sortAndDedupeNodes discovered) :=
  if_pos (by simpa using some)

theorem Contacted.found {s t : Session} {order : List Url} {result : Except Error (List Url)}
    (asked : Contacted config outcome order [] false s t result)
    (some : order.flatMap (clusterList config outcome) ≠ []) :
    result = .ok (sortAndDedupeNodes (order.flatMap (clusterList config outcome))) := by
  obtain ⟨last, _, ended⟩ := asked.result
  rwa [List.nil_append, concludeScope_some some] at ended

/-- Visiting the same nodes in two orders ends with the same statuses and the same
list, or throws both times: what each node answers does not depend on its turn. -/
theorem Contacted.agree {s t s' t' : Session} {left right : List Url}
    {one other : Except Error (List Url)} (start : t.nodes = s.nodes) (perm : left.Perm right)
    (separated : Separates Url.toString left)
    (lists : Separates Url.toString (left.flatMap (clusterList config outcome)))
    (first : Contacted config outcome left [] false s s' one)
    (second : Contacted config outcome right [] false t t' other) :
    t'.nodes.healthStore = s'.nodes.healthStore ∧
      ((one = other ∧ ∃ nodes, one = .ok nodes) ∨
        ((∃ error, one = .error error) ∧ ∃ error, other = .error error)) := by
  constructor
  · rw [second.healthStore, first.healthStore, start]
    exact (foldl_clusterReport perm separated _).symm
  · obtain ⟨last, failed, ended⟩ := first.result
    obtain ⟨last', failed', ended'⟩ := second.result
    have union : ∀ u, u ∈ left.flatMap (clusterList config outcome) ↔
        u ∈ right.flatMap (clusterList config outcome) := fun u => (perm.flatMap_right _).mem_iff
    have any : last'.isSome = last.isSome := by
      rw [failed, failed', perm.any_eq]
    rw [List.nil_append] at ended ended'
    by_cases none : left.flatMap (clusterList config outcome) = []
    · have none' : right.flatMap (clusterList config outcome) = [] :=
        List.eq_nil_iff_forall_not_mem.mpr fun u member => by simpa [none] using (union u).mpr member
      rw [none] at ended
      rw [none'] at ended'
      cases last with
      | none =>
        cases last' with
        | none => exact .inl ⟨ended.trans ended'.symm, [], ended⟩
        | some error => simp at any
      | some error =>
        cases last' with
        | none => simp at any
        | some error' => exact .inr ⟨⟨error, ended⟩, error', ended'⟩
    · obtain ⟨u, member⟩ := List.exists_mem_of_ne_nil _ none
      have found := first.found none
      have found' := second.found (List.ne_nil_of_mem ((union u).mp member))
      refine .inl ⟨?_, _, found⟩
      rw [found, found']
      exact congrArg Except.ok (sortUnique_congr lists union)

theorem updateLiveNodes_error (cluster : config.routingScope = .cluster) {s : Session}
    (thrown : ∃ error, (s.getNodesForScope config .cluster).1 = .error error) :
    (∃ error, (s.updateLiveNodes config).1 = .error error) ∧
      (s.updateLiveNodes config).2.nodes.liveNodes = s.nodes.liveNodes := by
  have unchanged := fetchFrom_liveNodes config config.routingScope.chain s
  obtain ⟨error, thrown⟩ := thrown
  rw [updateLiveNodes_cluster cluster]
  have chain : config.routingScope.chain = [.cluster] := by rw [cluster]; rfl
  simp only [chain, fetchFrom] at unchanged
  cases asked : s.getNodesForScope config .cluster with
  | mk result t =>
    rw [asked] at thrown unchanged
    obtain rfl : result = .error error := thrown
    exact ⟨⟨error, rfl⟩, unchanged⟩

theorem probeDownNodes_congr {s t : Session} (wire : t.wire = s.wire)
    (store : t.nodes.healthStore = s.nodes.healthStore) :
    t.probeDownNodes.2.nodes.healthStore = s.probeDownNodes.2.nodes.healthStore := by
  simp only [probeDownNodes, wire, store]

/-- So does the rest of a refresh, which also sees the live nodes. -/
theorem updateLiveNodes_congr (cluster : config.routingScope = .cluster) {s t s' t' : Session}
    {nodes : List Url} (wire : t'.wire = s'.wire)
    (live : t'.nodes.liveNodes = s'.nodes.liveNodes)
    (store : t'.nodes.healthStore = s'.nodes.healthStore)
    (left : s.getNodesForScope config .cluster = (.ok nodes, s'))
    (right : t.getNodesForScope config .cluster = (.ok nodes, t')) :
    (s.updateLiveNodes config).1 = .ok () ∧ (t.updateLiveNodes config).1 = .ok () ∧
      (t.updateLiveNodes config).2.nodes.liveNodes = (s.updateLiveNodes config).2.nodes.liveNodes ∧
      (t.updateLiveNodes config).2.nodes.healthStore =
        (s.updateLiveNodes config).2.nodes.healthStore ∧
      (nodes ≠ [] → (s.updateLiveNodes config).2.nodes.liveNodes = sortAndDedupeNodes nodes) := by
  rw [updateLiveNodes_cluster cluster s, updateLiveNodes_cluster cluster t, left, right]
  dsimp only
  split
  · rename_i none
    refine ⟨rfl, rfl, live, probeDownNodes_congr wire store, ?_⟩
    intro some
    exact absurd (List.isEmpty_iff.mp none) some
  · obtain ⟨held, committed⟩ := s'.nodes.commit_eq nodes
    obtain ⟨held', committed'⟩ := t'.nodes.commit_eq nodes
    refine ⟨rfl, rfl, ?_, probeDownNodes_congr wire ?_, ?_⟩
    · simp [probeDownNodes, act, committed, committed']
    · simp [act, committed, committed', live, store]
    · simp [probeDownNodes, act, committed]

/-- One list is enough for a refresh to succeed. -/
theorem updateLiveNodes_listed (cluster : config.routingScope = .cluster) {s : Session}
    (steady : s.wire = Wire.steady outcome)
    (present : ∀ u ∈ s.nodes.initialNodes, u.empty = false)
    (small : s.nodes.initialNodes.length < 2 ^ 31) {node : Url}
    (asked : node ∈ s.nodes.initialNodes) (some : clusterList config outcome node ≠ []) :
    (s.updateLiveNodes config).1 = .ok () := by
  obtain ⟨order, perm, contacted⟩ :=
    @contacted_getNodesForScope config outcome s steady present small
  obtain ⟨u, member⟩ := List.exists_mem_of_ne_nil _ some
  have found := contacted.found
    (List.ne_nil_of_mem (List.mem_flatMap.mpr ⟨node, perm.mem_iff.mpr asked, member⟩))
  exact (updateLiveNodes_congr cluster rfl rfl rfl (Prod.ext found rfl) (Prod.ext found rfl)).1

end Session

/-- The order in which the clock has the initial nodes asked is not to be seen
after a refresh of the cluster scope: two refreshes of one state leave the same
live nodes and the same health, or both throw. Where a node lists any, the live
nodes are all that were listed. -/
theorem updateLiveNodes_contactOrder {config : Config} {s t : Session}
    {outcome : Url → Except Bytes HttpResponse} (cluster : config.routingScope = .cluster)
    (start : t.nodes = s.nodes) (left : s.wire = Wire.steady outcome)
    (right : t.wire = Wire.steady outcome)
    (present : ∀ u ∈ s.nodes.initialNodes, u.empty = false)
    (separated : Separates Url.toString s.nodes.initialNodes)
    (lists : Separates Url.toString
      (s.nodes.initialNodes.flatMap (clusterList config outcome))) :
    ((s.updateLiveNodes config).1 = .ok () ∧ (t.updateLiveNodes config).1 = .ok () ∧
      (t.updateLiveNodes config).2.nodes.liveNodes = (s.updateLiveNodes config).2.nodes.liveNodes ∧
      (t.updateLiveNodes config).2.nodes.healthStore =
        (s.updateLiveNodes config).2.nodes.healthStore ∧
      ((∃ node ∈ s.nodes.initialNodes, clusterList config outcome node ≠ []) →
        Ascending Url.toString (s.updateLiveNodes config).2.nodes.liveNodes ∧
        ∀ u, u ∈ (s.updateLiveNodes config).2.nodes.liveNodes ↔
          ∃ node ∈ s.nodes.initialNodes, u ∈ clusterList config outcome node)) ∨
    ((∃ error, (s.updateLiveNodes config).1 = .error error) ∧
      (∃ error, (t.updateLiveNodes config).1 = .error error) ∧
      (s.updateLiveNodes config).2.nodes.liveNodes = s.nodes.liveNodes ∧
      (t.updateLiveNodes config).2.nodes.liveNodes = s.nodes.liveNodes) := by
  by_cases small : s.nodes.initialNodes.length < 2 ^ 31
  · obtain ⟨order, perm, first⟩ := @Session.contacted_getNodesForScope config _ _ left present small
    obtain ⟨order', perm', second⟩ := @Session.contacted_getNodesForScope config _ _ right
      (by rwa [start]) (by rwa [start])
    rw [start] at perm'
    have union : ∀ u, u ∈ order.flatMap (clusterList config outcome) ↔
        ∃ node ∈ s.nodes.initialNodes, u ∈ clusterList config outcome node := by
      intro u
      rw [(perm.flatMap_right _).mem_iff, List.mem_flatMap]
    have listed : Separates Url.toString (order.flatMap (clusterList config outcome)) :=
      lists.mono (perm.flatMap_right _).subset
    obtain ⟨store, result⟩ := first.agree start (perm.trans perm'.symm)
      (separated.mono perm.subset) listed second
    have live := second.liveNodes.trans ((congrArg _ start).trans first.liveNodes.symm)
    have wire := second.wire.trans first.wire.symm
    rcases result with ⟨same, nodes, returned⟩ | ⟨thrown, thrown'⟩
    · left
      obtain ⟨done, done', live, store, committed⟩ := Session.updateLiveNodes_congr cluster wire live
        store (Prod.ext returned rfl) (Prod.ext (same.symm.trans returned) rfl)
      refine ⟨done, done', live, store, ?_⟩
      rintro ⟨node, asked, some⟩
      obtain ⟨u, member⟩ := List.exists_mem_of_ne_nil _ some
      have any : order.flatMap (clusterList config outcome) ≠ [] :=
        List.ne_nil_of_mem ((union u).mpr ⟨node, asked, member⟩)
      obtain rfl : nodes = sortAndDedupeNodes (order.flatMap (clusterList config outcome)) :=
        Except.ok.inj (returned.symm.trans (first.found any))
      have ascending := sortAndDedupeNodes_ascending listed
      have kept : (s.updateLiveNodes config).2.nodes.liveNodes =
          sortAndDedupeNodes (order.flatMap (clusterList config outcome)) :=
        (committed (sortAndDedupeNodes_ne_nil any)).trans ascending.sortUnique_eq
      rw [kept]
      refine ⟨ascending, fun v => ?_⟩
      rw [mem_sortAndDedupeNodes]
      exact union v
    · obtain ⟨thrown, live⟩ := Session.updateLiveNodes_error cluster thrown
      obtain ⟨thrown', live'⟩ := Session.updateLiveNodes_error cluster thrown'
      exact .inr ⟨thrown, thrown', live, live'.trans (congrArg _ start)⟩
  · have large := not_lt.mp small
    obtain ⟨thrown, live⟩ := Session.updateLiveNodes_error cluster
      (Session.getNodesForScope_oversized present large)
    obtain ⟨thrown', live'⟩ := @Session.updateLiveNodes_error _ cluster t
      (Session.getNodesForScope_oversized (by rwa [start]) (by rwa [start]))
    exact .inr ⟨thrown, thrown', live, live'.trans (congrArg _ start)⟩

/-- Only the node `a` can be reached; it lists itself and `c`. -/
def halfReachable (endpoint : Url) : Except Bytes HttpResponse :=
  if endpoint.host = bytes "a" then .ok ⟨200, bytes "[\"c\", \"a\"]"⟩ else .error (bytes "refused")

/-- A client of `a` and `b` in front of that network. -/
def Session.half (seed : Int64) : Session where
  nodes :=
    { initialNodes := [({} : Config).nodeUrl (bytes "a"), ({} : Config).nodeUrl (bytes "b")]
      liveNodes := [({} : Config).nodeUrl (bytes "a"), ({} : Config).nodeUrl (bytes "b")]
      healthStore := NodeHealthStore.new {}
        [({} : Config).nodeUrl (bytes "a"), ({} : Config).nodeUrl (bytes "b")]
      nextUpdate := milliseconds 60000, lastActivity := timePointMin }
  wire := .steady halfReachable
  clock := fun _ => 0
  seeds := fun _ => seed

/-- The seeds 0 and 1 order the two nodes differently, one of which fails, and the
refresh leaves the same statuses and nodes. -/
theorem updateLiveNodes_contactOrder_half :
    ((Session.half 1).updateLiveNodes {}).2.nodes.healthStore =
        ((Session.half 0).updateLiveNodes {}).2.nodes.healthStore ∧
      ((Session.half 1).updateLiveNodes {}).2.nodes.liveNodes =
        [({} : Config).nodeUrl (bytes "a"), ({} : Config).nodeUrl (bytes "c")] := by
  have present : ∀ u ∈ (Session.half 0).nodes.initialNodes, u.empty = false := by decide
  have asked : ({} : Config).nodeUrl (bytes "a") ∈ (Session.half 0).nodes.initialNodes := by decide
  have some : clusterList {} halfReachable (({} : Config).nodeUrl (bytes "a")) ≠ [] := by
    decide +kernel
  have lists : (Session.half 0).nodes.initialNodes.flatMap (clusterList {} halfReachable) =
      [({} : Config).nodeUrl (bytes "a"), ({} : Config).nodeUrl (bytes "c")] := by decide +kernel
  have done := @Session.updateLiveNodes_listed {} halfReachable rfl (Session.half 0) rfl present
    (by decide) _ asked some
  rcases @updateLiveNodes_contactOrder {} (Session.half 0) (Session.half 1) halfReachable rfl rfl
    rfl rfl present (by decide +kernel) (by rw [lists]; decide +kernel) with
    ⟨_, _, live, store, union⟩ | ⟨⟨error, thrown⟩, _⟩
  · obtain ⟨ascending, members⟩ := union ⟨_, asked, some⟩
    have sorted : Ascending Url.toString
        [({} : Config).nodeUrl (bytes "a"), ({} : Config).nodeUrl (bytes "c")] := by
      unfold Ascending
      decide +kernel
    refine ⟨store, live.trans (ascending.ext sorted fun u => ?_)⟩
    rw [members, ← List.mem_flatMap, lists]
  · exact absurd (done.symm.trans thrown) (by simp)

end AlternatorClient
