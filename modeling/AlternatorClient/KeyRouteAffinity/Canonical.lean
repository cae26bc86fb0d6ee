import AlternatorClient.KeyRouteAffinity

/-! The order of an affinity plan. Offered nodes that are not active come first,
then the seeded order of the active nodes, which sees neither the order nor the
repetitions in which a source lists them. -/
namespace AlternatorClient
open Foundation

theorem mem_nodesMissingFrom {nodes present : List Url} {u : Url} :
    u ∈ nodesMissingFrom nodes present ↔ u ∈ nodes ∧ u.empty = false ∧ u ∉ present := by
  simp [nodesMissingFrom, mem_appendFresh]

theorem nodesMissingFrom_nodup (nodes present : List Url) :
    (nodesMissingFrom nodes present).Nodup :=
  appendFresh_nodup List.nodup_nil

theorem nodesMissingFrom_subset {nodes present : List Url} (offered : nodes ⊆ present) :
    nodesMissingFrom nodes present = [] :=
  List.eq_nil_iff_forall_not_mem.mpr fun _ member =>
    (mem_nodesMissingFrom.mp member).2.2 (offered (mem_nodesMissingFrom.mp member).1)

theorem firstNodeWithSeed_canonical {nodes : List Url} (separated : Separates Url.toString nodes)
    (seed : Int64) :
    firstNodeWithSeed (sortAndDedupeNodes nodes) seed = firstNodeWithSeed nodes seed := by
  have fixed : sortAndDedupeNodes (sortAndDedupeNodes nodes) = sortAndDedupeNodes nodes :=
    (sortAndDedupeNodes_ascending separated).sortUnique_eq
  rw [firstNodeWithSeed, fixed, firstNodeWithSeed]

theorem sortAndDedupeNodes_perm {nodes : List Url} (separated : Separates Url.toString nodes) :
    (sortAndDedupeNodes nodes).Perm nodes.dedup := by
  refine (List.perm_ext_iff_of_nodup ?_ nodes.nodup_dedup).mpr (by simp)
  exact (sortAndDedupeNodes_ascending separated).nodup

theorem drainPlan_head {plan : QueryPlan} {u : Url} {rest : List Url}
    (drained : drainPlan plan = .ok (u :: rest)) : plan.next.map Prod.fst = .ok u := by
  rw [drainPlan_eq] at drained
  cases returned : plan.next with
  | error error => simp [returned] at drained
  | ok result =>
    obtain ⟨v, after⟩ := result
    cases visible : v.empty with
    | true => simp [returned, visible] at drained
    | false =>
      cases others : drainPlan after with
      | error error => simp [returned, visible, others] at drained
      | ok nodes =>
        simp only [returned, visible, others, Bool.false_eq_true, if_false, Except.ok.injEq,
          List.cons.injEq] at drained
        rw [← drained.1]
        rfl

section
variable {active : List Url} (present : ∀ u ∈ active, u.empty = false)
  (separated : Separates Url.toString active)
include present separated

/-- A drain of the seeded plan lists each active node once. -/
theorem seededDrain_perm {seed : Int64} {nodes : List Url}
    (drained : drainPlan (QueryPlan.withSortedSeed (sortAndDedupeNodes active) seed) = .ok nodes) :
    nodes.Perm active.dedup := by
  have perm : nodes.Perm (sortAndDedupeNodes active) :=
    drainPlan_perm drained fun u member => present u (mem_sortAndDedupeNodes.mp member)
  exact perm.trans (sortAndDedupeNodes_perm separated)

theorem drain_affinityPlan (some : active ≠ []) (offered : List Url) (seed : Int64) :
    drainResult (affinityPlan active offered seed) =
      (drainPlan (QueryPlan.withSortedSeed (sortAndDedupeNodes active) seed)).map
        (nodesMissingFrom offered (sortAndDedupeNodes active) ++ ·) := by
  simp only [affinityPlan, List.isEmpty_eq_false_iff.mpr some, Bool.false_eq_true, if_false]
  cases drained : drainPlan (QueryPlan.withSortedSeed (sortAndDedupeNodes active) seed) with
  | error error => rfl
  | ok nodes =>
    have perm := seededDrain_perm present separated drained
    have known : ∀ u ∈ nodes, u ∈ active := fun u member => List.mem_dedup.mp (perm.subset member)
    have distinct : nodes.Nodup := perm.nodup_iff.mpr active.nodup_dedup
    have fresh : ∀ u ∈ nodes, u ∉ nodesMissingFrom offered (sortAndDedupeNodes active) := by
      intro u member missing
      exact (mem_nodesMissingFrom.mp missing).2.2 (mem_sortAndDedupeNodes.mpr (known u member))
    have appended :
        appendMissingNodes (nodesMissingFrom offered (sortAndDedupeNodes active)) nodes =
        nodesMissingFrom offered (sortAndDedupeNodes active) ++ nodes :=
      appendFresh_eq_append distinct (fun u member => by simp [present u (known u member)]) fresh
    have whole : (nodesMissingFrom offered (sortAndDedupeNodes active) ++ nodes).Nodup :=
      List.nodup_append.mpr ⟨nodesMissingFrom_nodup _ _, distinct,
        fun u missing v member same => fresh v member (same ▸ missing)⟩
    have visible : ∀ u ∈ nodesMissingFrom offered (sortAndDedupeNodes active) ++ nodes,
        u.empty = false := by
      intro u member
      rcases List.mem_append.mp member with missing | member
      · exact (mem_nodesMissingFrom.mp missing).2.1
      · exact present u (known u member)
    change drainPlan (QueryPlan.fromOrderedNodes _) = _
    rw [appended, drainPlan_fromOrderedNodes, dedupePreservingOrder_eq whole visible]
    rfl

/-- A drain of the active nodes seeded with a hash starts with the affinity node of
the hash, so both ways to choose by a key agree on the first node. -/
theorem seededDrain_head (some : active ≠ []) {seed : Int64} {nodes : List Url}
    (drained : drainPlan (QueryPlan.withSortedSeed (sortAndDedupeNodes active) seed) = .ok nodes) :
    ∃ u rest, nodes = u :: rest ∧ firstNodeWithSeed active seed = .ok u := by
  have perm := seededDrain_perm present separated drained
  cases nodes with
  | nil => simp [some] at perm
  | cons u rest =>
    refine ⟨u, rest, rfl, ?_⟩
    rw [← firstNodeWithSeed_canonical separated,
      ← next_withSortedSeed (sortAndDedupeNodes_ascending separated)]
    exact drainPlan_head drained

/-- A source that offers only active nodes leaves the seeded order alone. -/
theorem drain_affinityPlan_active (some : active ≠ []) {offered : List Url} (seed : Int64)
    (sub : offered ⊆ active) :
    drainResult (affinityPlan active offered seed) =
      drainPlan (QueryPlan.withSortedSeed (sortAndDedupeNodes active) seed) := by
  have none : nodesMissingFrom offered (sortAndDedupeNodes active) = [] :=
    nodesMissingFrom_subset fun u member => mem_sortAndDedupeNodes.mpr (sub member)
  rw [drain_affinityPlan present separated some, none]
  cases drainPlan (QueryPlan.withSortedSeed (sortAndDedupeNodes active) seed) <;> rfl

end

/-- Two sources with the same set of active nodes give one plan to one key,
whatever the order, the repetitions, the table and the other attributes. -/
theorem queryPlanForPartitionKey_canonical {σ τ : Type} (first : NodesSource σ)
    (second : NodesSource τ) (s : σ) (t : τ) (values₁ values₂ : AttributeMap)
    (table₁ table₂ : Bytes) (metadata₁ metadata₂ : PartitionKeyMetadata)
    (value₁ value₂ : AttributeValue)
    (some₁ : first.getActiveNodes s ≠ []) (some₂ : second.getActiveNodes t ≠ [])
    (same : ∀ u, u ∈ first.getActiveNodes s ↔ u ∈ second.getActiveNodes t)
    (present : ∀ u ∈ first.getActiveNodes s, u.empty = false)
    (separated : Separates Url.toString (first.getActiveNodes s))
    (offered₁ : ∀ hash, ∃ nodes, (first.getQueryPlanNodesForHash hash s).1 = .ok nodes ∧
      nodes ⊆ first.getActiveNodes s)
    (offered₂ : ∀ hash, ∃ nodes, (second.getQueryPlanNodesForHash hash t).1 = .ok nodes ∧
      nodes ⊆ second.getActiveNodes t)
    (resolved₁ : partitionKeyValue values₁ table₁ metadata₁ = some value₁)
    (resolved₂ : partitionKeyValue values₂ table₂ metadata₂ = some value₂)
    (type : value₁.type = value₂.type) (payload : value₁.payload = value₂.payload) :
    let drain₁ := drainResult (queryPlanForPartitionKey first s values₁ table₁ metadata₁).1
    let drain₂ := drainResult (queryPlanForPartitionKey second t values₂ table₂ metadata₂).1
    drain₁ = drain₂ ∧
    (∀ nodes, drain₁ = .ok nodes →
      (∃ u rest, nodes = u :: rest ∧
        firstNodeWithSeed (first.getActiveNodes s) value₁.hash = .ok u) ∧
      nodes.Perm (first.getActiveNodes s).dedup) ∧
    ((first.getActiveNodes s).dedup.length < 2 ^ 31 → ∃ nodes, drain₁ = .ok nodes) := by
  intro drain₁ drain₂
  have hash : value₁.hash = value₂.hash := by rw [value₁.hash_eq, value₂.hash_eq, type, payload]
  have canonical : sortAndDedupeNodes (first.getActiveNodes s) =
      sortAndDedupeNodes (second.getActiveNodes t) := sortUnique_congr separated same
  have seeded₁ : drain₁ = drainPlan
      (QueryPlan.withSortedSeed (sortAndDedupeNodes (first.getActiveNodes s)) value₁.hash) := by
    obtain ⟨nodes, returned, sub⟩ := offered₁ value₁.hash
    simp only [drain₁, queryPlanForPartitionKey_ok (hashPartitionKey_ok resolved₁) returned]
    exact drain_affinityPlan_active present separated some₁ _ sub
  have seeded₂ : drain₂ = drainPlan
      (QueryPlan.withSortedSeed (sortAndDedupeNodes (second.getActiveNodes t)) value₂.hash) := by
    obtain ⟨nodes, returned, sub⟩ := offered₂ value₂.hash
    simp only [drain₂, queryPlanForPartitionKey_ok (hashPartitionKey_ok resolved₂) returned]
    exact drain_affinityPlan_active (fun u member => present u ((same u).mpr member))
      (separated.mono fun u member => (same u).mpr member) some₂ _ sub
  refine ⟨by rw [seeded₁, seeded₂, canonical, hash], ?_, ?_⟩
  · intro nodes drained
    rw [seeded₁] at drained
    exact ⟨seededDrain_head present separated some₁ drained,
      seededDrain_perm present separated drained⟩
  · intro small
    rw [seeded₁]
    exact drainPlan_returns ((sortAndDedupeNodes_perm separated).length_eq ▸ small)

/-- Two nodes, and the same two in another order and one of them twice, for
items that agree on the key only. -/
theorem queryPlanForPartitionKey_relisted :
    let a : Url := { scheme := bytes "http", host := bytes "a", port := 8000 }
    let b : Url := { scheme := bytes "http", host := bytes "b", port := 8000 }
    let key := AttributeValue.ofString (bytes "k")
    let metadata : PartitionKeyMetadata := ⟨OrderedMap.empty.assign (bytes "t") (bytes "pk")⟩
    let drain (active : List Url) (values : AttributeMap) :=
      drainResult (queryPlanForPartitionKey (NodesSource.ofActiveNodes fun _ : Unit => active)
        () values (bytes "t") metadata).1
    drain [a, b] (OrderedMap.empty.assign (bytes "pk") key) =
        drain [b, a, b] ((OrderedMap.empty.assign (bytes "pk") key).assign (bytes "x") {}) ∧
      ∃ nodes, drain [a, b] (OrderedMap.empty.assign (bytes "pk") key) = .ok nodes := by
  intro a b key metadata drain
  have canonical := queryPlanForPartitionKey_canonical
    (NodesSource.ofActiveNodes fun _ : Unit => [a, b])
    (NodesSource.ofActiveNodes fun _ : Unit => [b, a, b])
    () () (OrderedMap.empty.assign (bytes "pk") key)
    ((OrderedMap.empty.assign (bytes "pk") key).assign (bytes "x") {})
    (bytes "t") (bytes "t") metadata metadata
    key key (by simp [NodesSource.ofActiveNodes]) (by simp [NodesSource.ofActiveNodes])
    (by simp [NodesSource.ofActiveNodes, or_comm]) (by decide) (by decide)
    (fun hash => ⟨[a, b], rfl, fun u member => member⟩)
    (fun hash => ⟨[b, a, b], rfl, fun u member => member⟩)
    (by decide) (by decide) rfl rfl
  exact ⟨canonical.1, canonical.2.2 (by decide)⟩

end AlternatorClient
