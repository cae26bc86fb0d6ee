import AlternatorClient.LiveNodes.Actions

/-! The search along a chain of scopes. A scope is left for its fallback only
when every node it asked answered with an empty list: an error that no list of
the same scope makes up for is rethrown and ends the search. -/
namespace AlternatorClient
open Foundation

/-- The error a scope has seen last, after `last`. -/
def lastError (last : Option Error) : List Answer → Option Error
  | [] => last
  | answer :: rest =>
    match answer.result with
    | .error error => lastError (some error) rest
    | .ok _ => lastError last rest

theorem lastError_none {last : Option Error} {answers : List Answer}
    (none : lastError last answers = none) :
    last = .none ∧ ∀ answer ∈ answers, ∃ nodes, answer.result = .ok nodes := by
  induction answers generalizing last with
  | nil => exact ⟨none, by simp⟩
  | cons answer rest ih =>
    simp only [lastError] at none
    split at none
    · exact absurd (ih none).1 (by simp)
    · rename_i nodes found
      obtain ⟨first, others⟩ := ih none
      exact ⟨first, List.forall_mem_cons.mpr ⟨⟨nodes, found⟩, others⟩⟩

/-- The answers are those of nodes of a list, asked for a scope. -/
def AskedFor (scope : RoutingScopePtr) (nodes : List Url) (answers : List Answer) : Prop :=
  ∀ answer ∈ answers, ∃ node ∈ nodes, answer.endpoint = Session.localNodesEndpoint scope node

/-- Every node of a list was asked; an empty host ends a plan early. -/
def AskedAll (scope : RoutingScopePtr) (nodes : List Url) (answers : List Answer) : Prop :=
  (∀ node ∈ nodes, node.empty = false) →
    ∀ node ∈ nodes, ∃ answer ∈ answers, answer.endpoint = Session.localNodesEndpoint scope node

/-- The last answer is the first one that lists a node, and these are the nodes it
lists. Errors and empty lists may have come before it. -/
def ListedFirst (answers : List Answer) (nodes : List Url) : Prop :=
  ∃ before answer, answers = before ++ [answer] ∧ listed before = [] ∧
    answer.result = .ok nodes ∧ nodes ≠ []

theorem ListedFirst.cons {answers : List Answer} {nodes : List Url} {answer : Answer}
    (first : ListedFirst answers nodes) (nothing : answer.result.toOption.getD [] = []) :
    ListedFirst (answer :: answers) nodes := by
  obtain ⟨before, last, rfl, unlisted, result, some⟩ := first
  refine ⟨answer :: before, last, rfl, ?_, result, some⟩
  rw [listed_cons, nothing, unlisted, List.append_nil]

inductive ScopeOutcome (scope : RoutingScopePtr) (nodes discovered : List Url) (last : Option Error)
    (answers : List Answer) : Except Error (List Url) → Prop
  | list (plain : scope.isCluster = false) {found : List Url} (first : ListedFirst answers found) :
      ScopeOutcome scope nodes discovered last answers (.ok found)
  | exhausted (all : AskedAll scope nodes answers)
      (unlisted : scope.isCluster = true ∨ listed answers = []) :
      ScopeOutcome scope nodes discovered last answers
        (Session.concludeScope (discovered ++ listed answers) (lastError last answers))
  | oversized (large : 2 ^ 31 ≤ nodes.length) (error : Error) :
      ScopeOutcome scope nodes discovered last answers (.error error)

/-- What asking one node more does to the outcome of the rest of the plan. -/
theorem ScopeOutcome.cons {scope : RoutingScopePtr} {node : Url}
    {rest nodes discovered found : List Url} {last last' : Option Error}
    {answers : List Answer} {answer : Answer} {result : Except Error (List Url)}
    (perm : (node :: rest).Perm nodes)
    (asked : answer.endpoint = Session.localNodesEndpoint scope node)
    (lists : answer.result.toOption.getD [] = found) (kept : scope.isCluster = true ∨ found = [])
    (latest : lastError last (answer :: answers) = lastError last' answers)
    (outcome : ScopeOutcome scope rest (discovered ++ found) last' answers result) :
    ScopeOutcome scope nodes discovered last (answer :: answers) result := by
  have collected : listed (answer :: answers) = found ++ listed answers := by
    rw [listed_cons, lists]
  cases outcome with
  | list plain first =>
    have none : found = [] := kept.resolve_left (by simp [plain])
    exact .list plain (first.cons (lists.trans none))
  | exhausted all unlisted =>
    rw [List.append_assoc, ← collected, ← latest]
    refine .exhausted ?_ ?_
    · intro present u member
      rcases List.mem_cons.mp (perm.symm.subset member) with rfl | member
      · exact ⟨answer, List.mem_cons_self, asked⟩
      · obtain ⟨other, listed, endpoint⟩ := all
          (fun v left => present v (perm.subset (List.mem_cons_of_mem _ left))) u member
        exact ⟨other, List.mem_cons_of_mem _ listed, endpoint⟩
    · rcases kept with cluster | none
      · exact .inl cluster
      · rcases unlisted with cluster | nothing
        · exact .inl cluster
        · exact .inr (by simp [collected, none, nothing])
  | oversized large error =>
    refine .oversized (large.trans ?_) error
    have size := perm.length_eq
    simp only [List.length_cons] at size
    omega

theorem AskedFor.cons {scope : RoutingScopePtr} {node : Url} {rest nodes : List Url}
    {answers : List Answer} {answer : Answer} (perm : (node :: rest).Perm nodes)
    (asked : answer.endpoint = Session.localNodesEndpoint scope node)
    (others : AskedFor scope rest answers) :
    AskedFor scope nodes (answer :: answers) := by
  refine List.forall_mem_cons.mpr ⟨⟨node, perm.subset List.mem_cons_self, asked⟩, ?_⟩
  intro other member
  obtain ⟨u, left, endpoint⟩ := others other member
  exact ⟨u, perm.subset (List.mem_cons_of_mem _ left), endpoint⟩

/-- What the loop over the plan of a scope adds to the log, and how it ends. -/
def Visited (scope : RoutingScopePtr) (nodes discovered : List Url) (last : Option Error)
    (before after : List Answer) (result : Except Error (List Url)) : Prop :=
  ∃ answers, after = before ++ answers ∧ AskedFor scope nodes answers ∧
    ScopeOutcome scope nodes discovered last answers result

theorem Visited.cons {scope : RoutingScopePtr} {node : Url}
    {rest nodes discovered found : List Url} {last last' : Option Error}
    {before after : List Answer} {answer : Answer} {result : Except Error (List Url)}
    (perm : (node :: rest).Perm nodes)
    (asked : answer.endpoint = Session.localNodesEndpoint scope node)
    (lists : answer.result.toOption.getD [] = found) (kept : scope.isCluster = true ∨ found = [])
    (latest : ∀ answers, lastError last (answer :: answers) = lastError last' answers)
    (visited : Visited scope rest (discovered ++ found) last' (before ++ [answer]) after result) :
    Visited scope nodes discovered last before after result := by
  obtain ⟨answers, rfl, others, outcome⟩ := visited
  refine ⟨answer :: answers, by simp, ?_, ?_⟩
  · exact others.cons perm asked
  · exact outcome.cons perm asked lists kept (latest answers)

theorem Visited.skip {scope : RoutingScopePtr} {node : Url} {rest nodes discovered : List Url}
    {last last' : Option Error} {before after : List Answer} {answer : Answer}
    {result : Except Error (List Url)} (perm : (node :: rest).Perm nodes)
    (asked : answer.endpoint = Session.localNodesEndpoint scope node)
    (lists : answer.result.toOption.getD [] = [])
    (latest : ∀ answers, lastError last (answer :: answers) = lastError last' answers)
    (visited : Visited scope rest discovered last' (before ++ [answer]) after result) :
    Visited scope nodes discovered last before after result :=
  Visited.cons perm asked lists (.inr rfl) latest (by simpa using visited)

namespace Session
variable {config : Config} {scope : RoutingScopePtr}

@[simp] theorem reportNodeResult_answers (s : Session) (node : Url) (o : NodeHealthObservation) :
    (s.reportNodeResult config node o).answers = s.answers := rfl

theorem visited_visitPlan (fuel : Nat) (plan : QueryPlan) (discovered : List Url)
    (last : Option Error) (s : Session) (enough : plan.nodes.length < fuel) :
    Visited scope plan.nodes discovered last s.answers
      (visitPlan config scope fuel plan discovered last s).2.answers
      (visitPlan config scope fuel plan discovered last s).1 := by
  induction fuel generalizing plan discovered last s with
  | zero => omega
  | succ fuel ih =>
    have left {node : Url} {after : QueryPlan} (perm : (node :: after.nodes).Perm plan.nodes) :
        after.nodes.length < fuel := by
      have size := perm.length_eq
      simp only [List.length_cons] at size
      omega
    have turn := turn_visitPlan config scope fuel plan discovered last s
    generalize visitPlan config scope (fuel + 1) plan discovered last s = result at turn ⊢
    cases turn with
    | concluded done =>
      have all : AskedAll scope plan.nodes [] := by
        intro present
        simp [done present]
      have outcome : ScopeOutcome scope plan.nodes discovered last [] _ := .exhausted all (.inr rfl)
      exact ⟨[], by simp, by simp [AskedFor], by simpa [lastError, listed] using outcome⟩
    | oversized large error => exact ⟨[], by simp, by simp [AskedFor], .oversized large error⟩
    | nothing node after perm t answered =>
      obtain ⟨_, _, logged⟩ := getNodesFromEndpoint_frame answered
      have visited := ih after discovered last t (left perm)
      rw [logged] at visited
      exact visited.skip perm rfl rfl fun _ => rfl
    | list node after perm t nodes some plain answered =>
      obtain ⟨_, _, logged⟩ := getNodesFromEndpoint_frame answered
      have first : ListedFirst [⟨localNodesEndpoint scope node, .ok nodes⟩] nodes :=
        ⟨[], _, rfl, rfl, rfl, some⟩
      exact ⟨_, logged, AskedFor.cons perm rfl (by simp [AskedFor]), .list plain first⟩
    | merged node after perm t nodes cluster answered =>
      obtain ⟨_, _, logged⟩ := getNodesFromEndpoint_frame answered
      have visited := ih after (discovered ++ nodes) last t (left perm)
      rw [logged] at visited
      exact visited.cons perm rfl rfl (.inl cluster) fun _ => rfl
    | failed node after perm t error answered =>
      obtain ⟨_, _, logged⟩ := getNodesFromEndpoint_frame answered
      have visited := ih after discovered (.some error)
        (t.reportNodeResult config node (discoveryObservation error)) (left perm)
      rw [reportNodeResult_answers, logged] at visited
      exact visited.skip perm rfl rfl fun _ => rfl

theorem visited_getNodesForScope (s : Session) :
    Visited scope (s.getDiscoveryNodesForScope config scope).1 [] none s.answers
      (s.getNodesForScope config scope).2.answers (s.getNodesForScope config scope).1 := by
  have unlogged : (s.getDiscoveryNodesForScope config scope).2.answers = s.answers := by
    simp only [getDiscoveryNodesForScope]
    split <;> rfl
  simp only [getNodesForScope]
  generalize s.getDiscoveryNodesForScope config scope = chosen at unlogged ⊢
  obtain ⟨nodes, t⟩ := chosen
  rw [← unlogged]
  exact visited_visitPlan (nodes.length + 1) (QueryPlan.ofClock nodes t.takeSeed.1) [] none
    t.takeSeed.2 (Nat.lt_succ_self _)

end Session

structure ScopeVisit where
  scope : RoutingScopePtr
  start : Session

namespace ScopeVisit
variable (config : Config) (visit : ScopeVisit)

def nodes : List Url := (visit.start.getDiscoveryNodesForScope config visit.scope).1

def final : Session := (visit.start.getNodesForScope config visit.scope).2

def answers : List Answer := (visit.final config).answers.drop visit.start.answers.length

def Empty : Prop :=
  AskedAll visit.scope (visit.nodes config) (visit.answers config) ∧
    ∀ answer ∈ visit.answers config, answer.result = .ok []

/-- Every node was asked, none listed a node, and the error is the last one seen. -/
def Failed (error : Error) : Prop :=
  AskedAll visit.scope (visit.nodes config) (visit.answers config) ∧
    listed (visit.answers config) = [] ∧ lastError none (visit.answers config) = some error

/-- The scope has decided the search for these nodes: for the cluster scope every node
was asked and they are all that the answers list, in order and each of them once; for
any other scope they are the first list that is not empty, and no node was asked after
it. -/
inductive Decided : List Url → Prop
  | merged (cluster : visit.scope.isCluster = true)
      (all : AskedAll visit.scope (visit.nodes config) (visit.answers config))
      (some : listed (visit.answers config) ≠ []) :
      Decided (sortAndDedupeNodes (listed (visit.answers config)))
  | first {found : List Url} (plain : visit.scope.isCluster = false)
      (first : ListedFirst (visit.answers config) found) : Decided found

/-- Each visit starts where the one before it ended. -/
def Linked (config : Config) (s : Session) : List ScopeVisit → Session → Prop
  | [], t => s = t
  | visit :: rest, t => visit.start = s ∧ Linked config (visit.final config) rest t

theorem answers_eq_ok {answers : List Answer} (unlisted : listed answers = [])
    (fine : ∀ answer ∈ answers, ∃ nodes, answer.result = .ok nodes) :
    ∀ answer ∈ answers, answer.result = .ok [] := by
  intro answer member
  obtain ⟨nodes, found⟩ := fine answer member
  have none : answer.result.toOption.getD [] = [] :=
    List.flatMap_eq_nil_iff.mp unlisted answer member
  rw [found] at none ⊢
  exact congrArg Except.ok none

variable {config visit} in
theorem Decided.ne_nil {found : List Url} (decided : visit.Decided config found) : found ≠ [] := by
  cases decided with
  | merged _ _ some => exact sortAndDedupeNodes_ne_nil some
  | first _ first =>
    obtain ⟨_, _, _, _, _, some⟩ := first
    exact some

theorem outcome :
    AskedFor visit.scope (visit.nodes config) (visit.answers config) ∧
    ((∃ found, (visit.start.getNodesForScope config visit.scope).1 = .ok found ∧
        visit.Decided config found) ∨
      ((visit.start.getNodesForScope config visit.scope).1 = .ok [] ∧ visit.Empty config) ∨
      ∃ error, (visit.start.getNodesForScope config visit.scope).1 = .error error ∧
        (visit.Failed config error ∨ 2 ^ 31 ≤ (visit.nodes config).length)) := by
  obtain ⟨scope, s⟩ := visit
  obtain ⟨received, log, asked, outcome⟩ := @Session.visited_getNodesForScope config scope s
  have same : answers config ⟨scope, s⟩ = received := by simp [answers, final, log]
  simp only [Empty, Failed, nodes, same]
  refine ⟨asked, ?_⟩
  generalize (s.getNodesForScope config scope).1 = result at outcome ⊢
  cases outcome with
  | list plain first =>
    rw [← same] at first
    exact .inl ⟨_, rfl, .first plain first⟩
  | exhausted all unlisted =>
    by_cases nothing : listed received = []
    · simp only [Session.concludeScope, nothing, List.nil_append, List.isEmpty_nil, Bool.not_true,
        Bool.false_eq_true, if_false]
      cases raised : lastError none received with
      | none => exact .inr (.inl ⟨rfl, all, answers_eq_ok nothing (lastError_none raised).2⟩)
      | some error => exact .inr (.inr ⟨error, rfl, .inl ⟨all, trivial, rfl⟩⟩)
    · have some : (!(listed received).isEmpty) = true := by simpa using nothing
      simp only [Session.concludeScope, List.nil_append, some, if_true]
      refine .inl ⟨_, rfl, ?_⟩
      rw [← same] at nothing all ⊢
      exact .merged (unlisted.resolve_right (by rwa [← same])) all nothing
  | oversized large error => exact .inr (.inr ⟨error, rfl, .inr large⟩)

end ScopeVisit

theorem fetchFrom_fallback (config : Config) (chain : List RoutingScopePtr) (s : Session) :
    ∃ visits : List ScopeVisit,
      ScopeVisit.Linked config s visits (Session.fetchFrom config chain s).2 ∧
      visits.map ScopeVisit.scope <+: chain ∧
      (∀ visit ∈ visits, AskedFor visit.scope (visit.nodes config) (visit.answers config)) ∧
      match (Session.fetchFrom config chain s).1 with
      | .ok nodes =>
        (nodes = [] ∧ visits.map ScopeVisit.scope = chain ∧ ∀ visit ∈ visits, visit.Empty config) ∨
        (nodes ≠ [] ∧ ∃ earlier last, visits = earlier ++ [last] ∧
          (∀ visit ∈ earlier, visit.Empty config) ∧ last.Decided config nodes)
      | .error error =>
        ∃ earlier last, visits = earlier ++ [last] ∧ (∀ visit ∈ earlier, visit.Empty config) ∧
          (last.Failed config error ∨ 2 ^ 31 ≤ (last.nodes config).length) := by
  induction chain generalizing s with
  | nil => exact ⟨[], rfl, by simp, by simp, .inl ⟨rfl, rfl, by simp⟩⟩
  | cons scope rest ih =>
    obtain ⟨asked, outcome⟩ := ScopeVisit.outcome config ⟨scope, s⟩
    have alone : [ScopeVisit.mk scope s].map ScopeVisit.scope <+: scope :: rest := ⟨rest, rfl⟩
    have reached (result : Except Error (List Url))
        (returned : (s.getNodesForScope config scope).1 = result) :
        s.getNodesForScope config scope = (result, ScopeVisit.final config ⟨scope, s⟩) :=
      Prod.ext returned rfl
    simp only [Session.fetchFrom]
    rcases outcome with ⟨found, returned, decided⟩ | ⟨returned, empty⟩ | ⟨error, returned, failed⟩
    · have some := decided.ne_nil
      have visible : (!found.isEmpty) = true := by simpa using some
      simp only [reached _ returned, visible, if_true]
      exact ⟨[⟨scope, s⟩], ⟨rfl, rfl⟩, alone, by simpa using asked,
        .inr ⟨some, [], ⟨scope, s⟩, rfl, by simp, decided⟩⟩
    · simp only [reached _ returned, List.isEmpty_nil, Bool.not_true, Bool.false_eq_true, if_false]
      obtain ⟨visits, linked, within, others, result⟩ := ih (ScopeVisit.final config ⟨scope, s⟩)
      refine ⟨⟨scope, s⟩ :: visits, ⟨rfl, linked⟩, List.prefix_cons_inj _ |>.mpr within,
        List.forall_mem_cons.mpr ⟨asked, others⟩, ?_⟩
      have longer {earlier : List ScopeVisit} (all : ∀ visit ∈ earlier, visit.Empty config) :
          ∀ visit ∈ ⟨scope, s⟩ :: earlier, visit.Empty config :=
        List.forall_mem_cons.mpr ⟨empty, all⟩
      split at result
      · rename_i nodes returned
        rcases result with ⟨none, complete, all⟩ | ⟨some, earlier, last, rfl, all, decided⟩
        · exact .inl ⟨none, by simp [complete], longer all⟩
        · exact .inr ⟨some, ⟨scope, s⟩ :: earlier, last, rfl, longer all, decided⟩
      · obtain ⟨earlier, last, rfl, all, failed⟩ := result
        exact ⟨⟨scope, s⟩ :: earlier, last, rfl, longer all, failed⟩
    · simp only [reached _ returned]
      exact ⟨[⟨scope, s⟩], ⟨rfl, rfl⟩, alone, by simpa using asked,
        [], ⟨scope, s⟩, rfl, by simp, failed⟩

/-- The fallback law. The scopes are visited in the order of the chain, each
from where the one before it ended, as long as every node asked answers with an
empty list; the first scope with another answer decides. -/
theorem fetchLiveNodes_fallback (config : Config) (s : Session) :
    ∃ visits : List ScopeVisit,
      ScopeVisit.Linked config s visits (s.fetchLiveNodes config).2 ∧
      visits.map ScopeVisit.scope <+: config.routingScope.chain ∧
      (∀ visit ∈ visits, AskedFor visit.scope (visit.nodes config) (visit.answers config)) ∧
      match (s.fetchLiveNodes config).1 with
      | .ok nodes =>
        (nodes = [] ∧ visits.map ScopeVisit.scope = config.routingScope.chain ∧
          ∀ visit ∈ visits, visit.Empty config) ∨
        (nodes ≠ [] ∧ ∃ earlier last, visits = earlier ++ [last] ∧
          (∀ visit ∈ earlier, visit.Empty config) ∧ last.Decided config nodes)
      | .error error =>
        ∃ earlier last, visits = earlier ++ [last] ∧ (∀ visit ∈ earlier, visit.Empty config) ∧
          (last.Failed config error ∨ 2 ^ 31 ≤ (last.nodes config).length) :=
  fetchFrom_fallback config config.routingScope.chain s

namespace Session

/-- The loop of `GetNodesForScope` over an order that is already drawn. -/
def visitNodes (config : Config) (scope : RoutingScopePtr) :
    List Url → List Url → Option Error → Session → Except Error (List Url) × Session
  | [], discovered, last, s => (concludeScope discovered last, s)
  | node :: rest, discovered, last, s =>
    match s.getNodesFromEndpoint config (localNodesEndpoint scope node) with
    | (.ok nodes, s) =>
      if nodes.isEmpty then visitNodes config scope rest discovered last s
      else if !scope.isCluster then (.ok nodes, s)
      else visitNodes config scope rest (discovered ++ nodes) last s
    | (.error error, s) =>
      visitNodes config scope rest discovered (some error)
        (s.reportNodeResult config node (discoveryObservation error))

/-- What the nodes answer does not reach the plan, so its order may be drawn first. -/
theorem visitPlan_eq {config : Config} {scope : RoutingScopePtr} {fuel : Nat} {plan : QueryPlan}
    {order : List Url} (drained : plan.drainFor fuel = .ok order) (discovered : List Url)
    (last : Option Error) (s : Session) :
    visitPlan config scope fuel plan discovered last s =
      visitNodes config scope order discovered last s := by
  induction fuel generalizing plan order discovered last s with
  | zero =>
    cases drained
    rfl
  | succ fuel ih =>
    rw [QueryPlan.drainFor] at drained
    rw [visitPlan]
    cases returned : plan.next with
    | error error => simp [returned] at drained
    | ok result =>
      obtain ⟨node, after⟩ := result
      rw [returned] at drained
      dsimp only at drained ⊢
      cases empty : node.empty with
      | true =>
        rw [if_pos empty] at drained
        cases drained
        simp [visitNodes]
      | false =>
        rw [if_neg (by simp [empty])] at drained
        cases later : after.drainFor fuel with
        | error error => simp [later] at drained
        | ok rest =>
          rw [later] at drained
          cases drained
          rw [if_neg (by simp), visitNodes]
          cases s.getNodesFromEndpoint config (localNodesEndpoint scope node) with
          | mk result t =>
            cases result with
            | error error => exact ih later _ _ _
            | ok nodes =>
              dsimp only
              split
              · exact ih later _ _ _
              · split
                · rfl
                · exact ih later _ _ _

theorem drainPlan_singleton {u : Url} (present : u.empty = false) (seed : Int64) :
    drainPlan (QueryPlan.ofClock [u] seed) = .ok [u] := by
  obtain ⟨nodes, drained⟩ := @drainPlan_returns (QueryPlan.ofClock [u] seed)
    (by simp [QueryPlan.ofClock])
  have perm : nodes.Perm [u] := drainPlan_perm drained (by simpa [QueryPlan.ofClock] using present)
  rw [drained, perm.eq_singleton]

theorem getNodesForScope_singleton {config : Config} {scope : RoutingScopePtr} {s : Session}
    {u : Url} (chosen : (s.getDiscoveryNodesForScope config scope).1 = [u])
    (present : u.empty = false) :
    s.getNodesForScope config scope =
      visitNodes config scope [u] [] none
        (s.getDiscoveryNodesForScope config scope).2.takeSeed.2 := by
  simp only [getNodesForScope, chosen]
  exact visitPlan_eq (drainPlan_singleton present _) _ _ _

theorem fetchFrom_singleton {config : Config} {scope : RoutingScopePtr}
    {rest : List RoutingScopePtr} {s : Session} {u : Url}
    (chosen : (s.getDiscoveryNodesForScope config scope).1 = [u]) (present : u.empty = false) :
    fetchFrom config (scope :: rest) s =
      match visitNodes config scope [u] [] none
        (s.getDiscoveryNodesForScope config scope).2.takeSeed.2 with
      | (.error error, s) => (.error error, s)
      | (.ok nodes, s) => if !nodes.isEmpty then (.ok nodes, s) else fetchFrom config rest s := by
  rw [← getNodesForScope_singleton chosen present]
  rfl

theorem fetchFrom_error {config : Config} {scope : RoutingScopePtr} {rest : List RoutingScopePtr}
    {s : Session} (failed : (s.getNodesForScope config scope).1.toOption = none) :
    (fetchFrom config (scope :: rest) s).1.toOption = none := by
  simp only [fetchFrom]
  split
  · rfl
  · rename_i nodes t returned
    simp [returned, Except.toOption] at failed

/-- What a refresh of the cluster scope does once the nodes are asked. -/
theorem updateLiveNodes_cluster {config : Config} (cluster : config.routingScope = .cluster)
    (s : Session) :
    s.updateLiveNodes config =
      match s.getNodesForScope config .cluster with
      | (.error error, s) => (.error error, s)
      | (.ok nodes, s) =>
        if nodes.isEmpty then (.ok (), s.probeDownNodes.2)
        else (.ok (), (s.act fun n => ((), n.commit nodes)).2.probeDownNodes.2) := by
  have chain : config.routingScope.chain = [.cluster] := by rw [cluster]; rfl
  simp only [updateLiveNodes, fetchLiveNodes, chain, fetchFrom]
  cases s.getNodesForScope config .cluster with
  | mk result t =>
    cases result with
    | error error => rfl
    | ok nodes => cases nodes <;> rfl

end Session

/-- An error for the first scope of a chain hides a fallback that would answer:
one node, status 500 for `dc=wrong`, a list for `dc=target`. -/
theorem fetchLiveNodes_stops_at_error :
    let target := RoutingScopePtr.datacenter (bytes "target") .null
    let config : Config := { routingScope := .datacenter (bytes "wrong") target }
    let wire : Wire :=
      ⟨fun _ url =>
        .ok (if url.query = bytes "dc=wrong" then ⟨500, []⟩ else ⟨200, bytes "[\"b\"]"⟩)⟩
    ∃ nodes, LiveNodes.new [bytes "a"] config 0 = .ok nodes ∧
      ((Session.still nodes wire).fetchLiveNodes config).1.toOption = none ∧
      ((Session.still nodes wire).getNodesForScope config target).1.toOption =
        some [config.nodeUrl (bytes "b")] := by
  refine ⟨_, rfl, Session.fetchFrom_error ?_, ?_⟩
  · rw [@Session.getNodesForScope_singleton _ _ _ ⟨bytes "http", bytes "a", 8080, [], []⟩
      (by decide +kernel) (by decide)]
    decide +kernel
  · rw [@Session.getNodesForScope_singleton _ _ _ ⟨bytes "http", bytes "a", 8080, [], []⟩
      (by decide +kernel) (by decide)]
    decide +kernel

end AlternatorClient
