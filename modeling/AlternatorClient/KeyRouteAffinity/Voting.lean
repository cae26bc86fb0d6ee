import AlternatorClient.KeyRouteAffinity.BatchWrite

/-! The order of a batch-write plan: nodes offered beyond the active ones, the
voted nodes by their votes, and the other active nodes. -/
namespace AlternatorClient
open Foundation

/-- Whether an affinity node can be drawn depends on the number of nodes only. -/
theorem firstNodeWithSeed_cases {nodes : List Url} (some : nodes ≠ []) :
    (∀ seed, ∃ u ∈ nodes, firstNodeWithSeed nodes seed = .ok u) ∨
    (2 ^ 31 ≤ (sortAndDedupeNodes nodes).length ∧
      ∀ seed, firstNodeWithSeed nodes seed =
        .error (.invalidArgument (bytes "GoRandom::Int31n requires n > 0"))) := by
  have nonempty := sortAndDedupeNodes_ne_nil some
  have positive := List.length_pos_iff.mpr nonempty
  simp only [firstNodeWithSeed, List.isEmpty_eq_false_iff.mpr nonempty, Bool.false_eq_true,
    if_false]
  by_cases range : 0 < (Int32.ofNat (sortAndDedupeNodes nodes).length).toInt
  · left
    intro seed
    obtain ⟨idx, rng, drawn, low, high⟩ := GoRandom.int31n_range (GoRandom.ofSeed seed) _ range
    have bound := QueryPlan.toInt_ofNat_le (sortAndDedupeNodes nodes).length
    have inside : idx.toNat < (sortAndDedupeNodes nodes).length := by omega
    refine ⟨(sortAndDedupeNodes nodes).getD idx.toNat {}, ?_, by rw [drawn]⟩
    rw [List.getD_eq_getElem?_getD, List.getElem?_eq_getElem inside, Option.getD_some,
      ← mem_sortAndDedupeNodes]
    exact List.getElem_mem inside
  · right
    constructor
    · by_contra small
      rw [Int32.toInt_ofNat_of_lt (not_le.mp small)] at range
      omega
    · intro seed
      simp only [GoRandom.int31n, dif_pos (not_lt.mp range)]

def votesFor (active : List Url) (hashes : List Int64) (u : Url) : Int32 :=
  Int32.ofNat (hashes.countP fun hash => (firstNodeWithSeed active hash).toOption = some u)

/-- The voted nodes of a batch: more votes first, equal votes by `ToString`. -/
def Voted (active : List Url) (hashes : List Int64) (nodes : List Url) : Prop :=
  (∀ u, u ∈ nodes ↔ u ∈ active ∧ 0 < votesFor active hashes u) ∧
    Ascending (voteKey (votesFor active hashes) Url.toString) nodes

def winners (active : List Url) (hashes : List Int64) : List Url :=
  hashes.map fun hash => ((firstNodeWithSeed active hash).toOption).getD {}

section
variable {active : List Url} (present : ∀ u ∈ active, u.empty = false)
  (separated : Separates Url.toString active)
  (drawn : ∀ seed, ∃ u ∈ active, firstNodeWithSeed active seed = .ok u)

include drawn in
theorem winners_subset (hashes : List Int64) : winners active hashes ⊆ active := by
  intro u voted
  obtain ⟨hash, _, rfl⟩ := List.mem_map.mp voted
  obtain ⟨v, member, first⟩ := drawn hash
  rw [first]
  exact member

include drawn in
theorem count_winners (hashes : List Int64) (u : Url) :
    Int32.ofNat ((winners active hashes).count u) = votesFor active hashes u := by
  rw [winners, List.count_eq_countP, List.countP_map, votesFor]
  congr 1
  apply List.countP_congr
  intro hash _
  obtain ⟨v, _, first⟩ := drawn hash
  simp [first, Except.toOption]

include present separated drawn in
theorem countHashes_eq (hashes : List Int64) (votes : OrderedMap Url.toString Int32) :
    countHashes (sortAndDedupeNodes active) hashes votes =
      .ok ((winners active hashes).foldl vote votes) := by
  induction hashes generalizing votes with
  | nil => rfl
  | cons hash rest ih =>
    obtain ⟨u, member, first⟩ := drawn hash
    rw [countHashes, firstNodeWithSeed_canonical separated, first]
    simp [present u member, ih, winners, Except.toOption, first]

include present separated drawn in
theorem select_voted {operations : List BatchWriteOperation} {metadata : PartitionKeyMetadata}
    (some : active ≠ []) (usable : batchWriteHashes metadata operations ≠ []) :
    ∃ nodes, selectBatchWritePreferredNodesForCandidates (sortAndDedupeNodes active) operations
        metadata = .ok nodes ∧ Voted active (batchWriteHashes metadata operations) nodes := by
  have nonempty := sortAndDedupeNodes_ne_nil some
  generalize hashed : batchWriteHashes metadata operations = hashes at usable ⊢
  have apart : Separates Url.toString (winners active hashes) :=
    separated.mono (winners_subset drawn hashes)
  obtain ⟨winner, voted⟩ := List.exists_mem_of_ne_nil (winners active hashes)
    (by simpa [winners] using usable)
  have counted : ((winners active hashes).foldl vote
      (OrderedMap.empty : OrderedMap Url.toString Int32)).entries ≠ [] := by
    have entry : (winner, Int32.ofNat ((winners active hashes).count winner)) ∈
      ((winners active hashes).foldl vote OrderedMap.empty).entries :=
      (mem_tally apart).mpr ⟨voted, rfl⟩
    exact List.ne_nil_of_mem entry
  have count : votesFor active hashes = fun u => Int32.ofNat ((winners active hashes).count u) :=
    funext fun u => (count_winners drawn hashes u).symm
  simp only [selectBatchWritePreferredNodesForCandidates, List.isEmpty_eq_false_iff.mpr nonempty,
    List.isEmpty_eq_false_iff.mpr counted, countVotes_eq, hashed,
    countHashes_eq present separated drawn, Bool.false_eq_true, if_false]
  refine ⟨_, rfl, ?_, ?_⟩
  · intro u
    rw [mem_sortOn, mem_positive_tally apart, count]
    constructor
    · intro positive
      exact ⟨winners_subset drawn hashes (voted_of_positive positive), positive⟩
    · rintro ⟨_, positive⟩
      exact positive
  · rw [count]
    exact sortOn_tally_ascending apart

include present separated in
theorem drain_batchWritePlan (some : active ≠ []) {operations : List BatchWriteOperation}
    {metadata : PartitionKeyMetadata} {voted : List Url}
    (selected : selectBatchWritePreferredNodesForCandidates (sortAndDedupeNodes active) operations
      metadata = .ok voted)
    (distinct : voted.Nodup) (known : voted ⊆ active) (offered : List Url) :
    drainResult (batchWritePlan active offered operations metadata) =
      .ok (nodesMissingFrom offered (sortAndDedupeNodes active) ++ voted ++
        (sortAndDedupeNodes active).filter fun u => u ∉ voted) ∧
    (nodesMissingFrom offered (sortAndDedupeNodes active) ++ voted ++
      (sortAndDedupeNodes active).filter fun u => u ∉ voted).Nodup := by
  set missing := nodesMissingFrom offered (sortAndDedupeNodes active) with missing_eq
  have outside : ∀ u ∈ missing, u ∉ active := by
    intro u member inside
    exact (mem_nodesMissingFrom.mp member).2.2 (mem_sortAndDedupeNodes.mpr inside)
  have first : appendMissingNodes missing voted = missing ++ voted := by
    apply appendFresh_eq_append distinct
    · intro u member
      simp [present u (known member)]
    · intro u member inside
      exact outside u inside (known member)
  have ascending := sortAndDedupeNodes_ascending separated
  have second : appendMissingNodes (missing ++ voted) (sortAndDedupeNodes active) =
      missing ++ voted ++ (sortAndDedupeNodes active).filter fun u => u ∉ voted := by
    rw [appendMissingNodes, appendFresh_eq_filter ascending.nodup]
    congr 1
    apply List.filter_congr
    intro u member
    have inside := mem_sortAndDedupeNodes.mp member
    have fresh : u ∉ missing := fun old => outside u old inside
    simp [present u inside, fresh]
  have whole : (missing ++ voted ++
      (sortAndDedupeNodes active).filter fun u => u ∉ voted).Nodup := by
    refine List.nodup_append.mpr ⟨?_, ascending.nodup.filter _, ?_⟩
    · refine List.nodup_append.mpr ⟨nodesMissingFrom_nodup _ _, distinct, ?_⟩
      rintro u old v member rfl
      exact outside u old (known member)
    · rintro u old v member rfl
      obtain ⟨inside, unvoted⟩ := List.mem_filter.mp member
      rcases List.mem_append.mp old with old | old
      · exact outside u old (mem_sortAndDedupeNodes.mp inside)
      · simp [old] at unvoted
  have visible : ∀ u ∈ missing ++ voted ++
      (sortAndDedupeNodes active).filter (fun u => u ∉ voted), u.empty = false := by
    intro u member
    rcases List.mem_append.mp member with member | member
    · rcases List.mem_append.mp member with member | member
      · exact (mem_nodesMissingFrom.mp member).2.1
      · exact present u (known member)
    · exact present u (mem_sortAndDedupeNodes.mp (List.mem_filter.mp member).1)
  refine ⟨?_, whole⟩
  simp only [batchWritePlan, List.isEmpty_eq_false_iff.mpr some, Bool.false_eq_true, if_false,
    selected, ← missing_eq, first, second]
  change drainPlan (QueryPlan.fromOrderedNodes _) = _
  rw [drainPlan_fromOrderedNodes, dedupePreservingOrder_eq whole visible]

end

/-- Batches that differ in nothing a vote depends on. -/
inductive SameVotes (metadata : PartitionKeyMetadata) :
    List BatchWriteOperation → List BatchWriteOperation → Prop
  | permuted {first second : List BatchWriteOperation} : first.Perm second →
      SameVotes metadata first second
  | swapped (before after : List BatchWriteOperation) (tableName : Bytes) (values : AttributeMap) :
      SameVotes metadata (before ++ .put tableName values :: after)
        (before ++ .delete tableName values :: after)
  | attributes (before after : List BatchWriteOperation) (tableName : Bytes)
      {values others : AttributeMap} :
      (values.lookup (metadata.getPartitionKeyName tableName)).map Prod.snd =
        (others.lookup (metadata.getPartitionKeyName tableName)).map Prod.snd →
      SameVotes metadata (before ++ ⟨tableName, values⟩ :: after)
        (before ++ ⟨tableName, others⟩ :: after)
  | unusable (before after : List BatchWriteOperation) {operation : BatchWriteOperation} :
      partitionKeyValue operation.values operation.tableName metadata = none →
      SameVotes metadata (before ++ after) (before ++ operation :: after)
  | symm {first second : List BatchWriteOperation} : SameVotes metadata first second →
      SameVotes metadata second first
  | trans {first second third : List BatchWriteOperation} : SameVotes metadata first second →
      SameVotes metadata second third → SameVotes metadata first third

theorem SameVotes.hashes_perm {metadata : PartitionKeyMetadata}
    {first second : List BatchWriteOperation} (same : SameVotes metadata first second) :
    (batchWriteHashes metadata first).Perm (batchWriteHashes metadata second) := by
  simp only [batchWriteHashes_eq]
  induction same with
  | permuted perm => exact perm.filterMap _
  | swapped before after tableName values => exact .refl _
  | attributes before after tableName agree =>
    simp [List.filterMap_append, List.filterMap_cons, partitionKeyValue, agree]
  | unusable before after unknown => simp [List.filterMap_append, unknown]
  | symm _ ih => exact ih.symm
  | trans _ _ first second => exact first.trans second

theorem Voted.congr {active : List Url} {hashes others : List Int64} {nodes : List Url}
    (perm : hashes.Perm others) (voted : Voted active hashes nodes) :
    Voted active others nodes := by
  have same : votesFor active hashes = votesFor active others := by
    funext u
    rw [votesFor, votesFor, perm.countP_eq]
  rwa [Voted, ← same]

theorem Voted.unique {active : List Url} {hashes : List Int64} {first second : List Url}
    (left : Voted active hashes first) (right : Voted active hashes second) : first = second :=
  left.2.ext right.2 fun u => (left.1 u).trans (right.1 u).symm

theorem select_unusable {candidates : List Url} (some : candidates ≠ [])
    {operations : List BatchWriteOperation} {metadata : PartitionKeyMetadata}
    (unusable : batchWriteHashes metadata operations = []) :
    selectBatchWritePreferredNodesForCandidates candidates operations metadata =
      .error (.invalidArgument
        (bytes "batch write request does not have usable preferred nodes")) := by
  simp only [selectBatchWritePreferredNodesForCandidates, List.isEmpty_eq_false_iff.mpr some,
    countVotes_eq, unusable, countHashes, Bool.false_eq_true, if_false]
  rfl

theorem select_refused {candidates : List Url} (some : candidates ≠ []) {error : Error}
    (refused : ∀ seed, firstNodeWithSeed candidates seed = .error error)
    {operations : List BatchWriteOperation} {metadata : PartitionKeyMetadata}
    (usable : batchWriteHashes metadata operations ≠ []) :
    selectBatchWritePreferredNodesForCandidates candidates operations metadata =
      .error error := by
  simp only [selectBatchWritePreferredNodesForCandidates, List.isEmpty_eq_false_iff.mpr some,
    countVotes_eq, Bool.false_eq_true, if_false]
  cases hashes : batchWriteHashes metadata operations with
  | nil => contradiction
  | cons hash rest => simp only [countHashes, refused]

/-- The selection sees the usable hashes only, and not their order. -/
theorem select_congr {active : List Url} (some : active ≠ [])
    (present : ∀ u ∈ active, u.empty = false) (separated : Separates Url.toString active)
    {metadata : PartitionKeyMetadata} {first second : List BatchWriteOperation}
    (perm : (batchWriteHashes metadata first).Perm (batchWriteHashes metadata second)) :
    selectBatchWritePreferredNodesForCandidates (sortAndDedupeNodes active) first metadata =
      selectBatchWritePreferredNodesForCandidates (sortAndDedupeNodes active) second metadata := by
  have nonempty := sortAndDedupeNodes_ne_nil some
  by_cases unusable : batchWriteHashes metadata first = []
  · have other : batchWriteHashes metadata second = [] := by
      rw [unusable] at perm
      exact perm.symm.eq_nil
    rw [select_unusable nonempty unusable, select_unusable nonempty other]
  · have other : batchWriteHashes metadata second ≠ [] := by
      intro none
      rw [none] at perm
      exact unusable perm.eq_nil
    rcases firstNodeWithSeed_cases some with drawn | ⟨_, refused⟩
    · obtain ⟨nodes, selected, voted⟩ := select_voted present separated drawn some unusable
      obtain ⟨others, selected', voted'⟩ := select_voted present separated drawn some other
      rw [selected, selected', (voted.congr perm).unique voted']
    · have refused : ∀ seed, firstNodeWithSeed (sortAndDedupeNodes active) seed = .error
          (.invalidArgument (bytes "GoRandom::Int31n requires n > 0")) := by
        intro seed
        rw [firstNodeWithSeed_canonical separated, refused]
      rw [select_refused nonempty refused unusable, select_refused nonempty refused other]

theorem selectBatchWritePreferredNodes_eq {σ : Type} {nodes : NodesSource σ} {s : σ}
    (some : nodes.getActiveNodes s ≠ []) (operations : List BatchWriteOperation)
    (metadata : PartitionKeyMetadata) :
    (selectBatchWritePreferredNodes nodes s operations metadata).1 =
      selectBatchWritePreferredNodesForCandidates (sortAndDedupeNodes (nodes.getActiveNodes s))
        operations metadata := by
  simp [selectBatchWritePreferredNodes, affinityNodes, some]

/-- Everything a source offers for the hashes, in the order it is asked. -/
def offeredForHashes {σ : Type} (nodes : NodesSource σ) :
    List Int64 → σ → Except Error (List Url) × σ
  | [], s => (.ok [], s)
  | hash :: rest, s =>
    match nodes.getQueryPlanNodesForHash hash s with
    | (.error error, s) => (.error error, s)
    | (.ok offered, s) =>
      match offeredForHashes nodes rest s with
      | (.error error, s) => (.error error, s)
      | (.ok later, s) => (.ok (offered ++ later), s)

theorem appendNodesForHashes_eq {σ : Type} {nodes : NodesSource σ} {hashes : List Int64} {s t : σ}
    {offered : List Url} (asked : offeredForHashes nodes hashes s = (.ok offered, t))
    (out : List Url) :
    appendNodesForHashes nodes hashes out s = (.ok (appendMissingNodes out offered), t) := by
  induction hashes generalizing s offered out with
  | nil =>
    cases asked
    rfl
  | cons hash rest ih =>
    simp only [offeredForHashes] at asked
    cases answer : nodes.getQueryPlanNodesForHash hash s with
    | mk result after =>
      cases result with
      | error error => simp [answer] at asked
      | ok first =>
        simp only [answer] at asked
        cases later : offeredForHashes nodes rest after with
        | mk result final =>
          cases result with
          | error error => simp [later] at asked
          | ok others =>
            simp only [later, Prod.mk.injEq, Except.ok.injEq] at asked
            obtain ⟨rfl, rfl⟩ := asked
            simp only [appendNodesForHashes, answer, ih later]
            rw [appendMissingNodes, appendMissingNodes, appendFresh_append]
            rfl

/-- The hashes of the operations whose key name is known and whose key value is
there. -/
def usableHashes (metadata : PartitionKeyMetadata) (operations : List BatchWriteOperation) :
    List Int64 :=
  operations.filterMap fun operation =>
    (partitionKeyValue operation.values operation.tableName metadata).map AttributeValue.hash

/-- The nodes a batch is offered: those of its hashes, or the general ones
where no hash is offered any. -/
def offeredToBatch (offered others : List Url) : List Url :=
  if ∀ u ∈ offered, u.empty = true then others else offered

theorem queryPlanNodesForHashes_missing {σ : Type} {nodes : NodesSource σ} {hashes : List Int64}
    {s t : σ} {offered others : List Url}
    (asked : offeredForHashes nodes hashes s = (.ok offered, t))
    (general : (∀ u ∈ offered, u.empty = true) → (nodes.getQueryPlanNodes t).1 = .ok others)
    (present : List Url) :
    ∃ candidates, (queryPlanNodesForHashes nodes hashes s).1 = .ok candidates ∧
      nodesMissingFrom candidates present =
        ((offeredToBatch offered others).filter fun u =>
          !u.empty && decide (u ∉ present)).eraseDups := by
  have missing : ∀ l, nodesMissingFrom l present =
      (l.filter fun u => !u.empty && decide (u ∉ present)).eraseDups := by
    intro l
    rw [nodesMissingFrom, appendFresh_eq_eraseDups]
    simp
  have asked := appendNodesForHashes_eq asked []
  have distinct : (appendMissingNodes [] offered).Nodup := appendFresh_nodup List.nodup_nil
  rw [queryPlanNodesForHashes, asked]
  by_cases none : ∀ u ∈ offered, u.empty = true
  · have nothing : appendMissingNodes [] offered = [] := by
      apply List.eq_nil_iff_forall_not_mem.mpr
      intro u member
      have kept := (mem_appendFresh.mp member).resolve_left (by simp)
      simp [none u kept.1] at kept
    refine ⟨others, ?_, ?_⟩
    · simp [nothing, general none]
    · rw [missing, offeredToBatch, if_pos none]
  · have something : appendMissingNodes [] offered ≠ [] := by
      simp only [not_forall] at none
      obtain ⟨u, member, host⟩ := none
      exact List.ne_nil_of_mem (mem_appendFresh.mpr (.inr ⟨member, by simpa using host⟩))
    refine ⟨appendMissingNodes [] offered, by simp [something], ?_⟩
    rw [offeredToBatch, if_neg none, nodesMissingFrom, appendFresh_eq_filter distinct,
      appendMissingNodes, appendFresh_eq_eraseDups, List.nil_append, List.nil_append,
      filter_eraseDups, List.filter_filter]
    congr 1
    apply List.filter_congr
    intro u _
    cases u.empty <;> simp

theorem queryPlanForBatchWrite_fst {σ : Type} {nodes : NodesSource σ} {s : σ}
    {operations : List BatchWriteOperation} {metadata : PartitionKeyMetadata}
    {candidates : List Url}
    (returned : (queryPlanNodesForHashes nodes (batchWriteHashes metadata operations) s).1 =
      .ok candidates) :
    (queryPlanForBatchWrite nodes s operations metadata).1 =
      batchWritePlan (nodes.getActiveNodes s) candidates operations metadata := by
  simp only [queryPlanForBatchWrite]
  cases answer : queryPlanNodesForHashes nodes (batchWriteHashes metadata operations) s with
  | mk result after =>
    rw [answer] at returned
    subst returned
    rfl

theorem votesFor_toInt {active : List Url} {hashes : List Int64} (few : hashes.length < 2 ^ 31)
    (u : Url) :
    (votesFor active hashes u).toInt =
      hashes.countP fun hash => (firstNodeWithSeed active hash).toOption = some u := by
  rw [votesFor, Int32.toInt_ofNat_of_lt]
  exact lt_of_le_of_lt List.countP_le_length few

/-- Planning over some active node lists the voted first, or the nodes are too
many to draw from. -/
theorem drain_batchWritePlan_cases {active : List Url} (some : active ≠ [])
    (present : ∀ u ∈ active, u.empty = false) (separated : Separates Url.toString active)
    {operations : List BatchWriteOperation} {metadata : PartitionKeyMetadata}
    (usable : batchWriteHashes metadata operations ≠ []) (offered : List Url) :
    (∃ voted, Voted active (batchWriteHashes metadata operations) voted ∧
      drainResult (batchWritePlan active offered operations metadata) =
        .ok (nodesMissingFrom offered (sortAndDedupeNodes active) ++ voted ++
          (sortAndDedupeNodes active).filter fun u => u ∉ voted) ∧
      (nodesMissingFrom offered (sortAndDedupeNodes active) ++ voted ++
        (sortAndDedupeNodes active).filter fun u => u ∉ voted).Nodup) ∨
    (2 ^ 31 ≤ (sortAndDedupeNodes active).length ∧
      ∃ error, drainResult (batchWritePlan active offered operations metadata) = .error error) := by
  rcases firstNodeWithSeed_cases some with drawn | ⟨large, refused⟩
  · obtain ⟨voted, selected, elected⟩ := select_voted present separated drawn some usable
    exact .inl ⟨voted, elected, drain_batchWritePlan present separated some selected
      elected.2.nodup (fun u member => ((elected.1 u).mp member).1) offered⟩
  · have refused : ∀ seed, firstNodeWithSeed (sortAndDedupeNodes active) seed = .error
        (.invalidArgument (bytes "GoRandom::Int31n requires n > 0")) := by
      intro seed
      rw [firstNodeWithSeed_canonical separated, refused]
    refine .inr ⟨large, .invalidArgument (bytes "GoRandom::Int31n requires n > 0"), ?_⟩
    simp only [batchWritePlan, List.isEmpty_eq_false_iff.mpr some, Bool.false_eq_true, if_false,
      select_refused (sortAndDedupeNodes_ne_nil some) refused usable]
    rfl

/-- The plan of a batch: what is offered beyond the active nodes, the voted
nodes, and the other active nodes. Nothing but the votes reaches the choice. -/
theorem queryPlanForBatchWrite_voting {σ : Type} (nodes : NodesSource σ) (s t : σ)
    (operations : List BatchWriteOperation) (metadata : PartitionKeyMetadata)
    (offered others : List Url) (nonempty : nodes.getActiveNodes s ≠ [])
    (present : ∀ u ∈ nodes.getActiveNodes s, u.empty = false)
    (separated : Separates Url.toString (nodes.getActiveNodes s))
    (usable : usableHashes metadata operations ≠ [])
    (asked : offeredForHashes nodes (usableHashes metadata operations) s = (.ok offered, t))
    (general : (∀ u ∈ offered, u.empty = true) → (nodes.getQueryPlanNodes t).1 = .ok others) :
    let active := nodes.getActiveNodes s
    let hashes := usableHashes metadata operations
    let drain := drainResult (queryPlanForBatchWrite nodes s operations metadata).1
    (∀ plan, drain = .ok plan → ∃ voted rest,
      plan = ((offeredToBatch offered others).filter fun u =>
        !u.empty && decide (u ∉ active)).eraseDups ++ voted ++ rest ∧
      Voted active hashes voted ∧ (∀ u, u ∈ rest ↔ u ∈ active ∧ u ∉ voted) ∧
      Ascending Url.toString rest ∧ plan.Nodup) ∧
    ((sortAndDedupeNodes active).length < 2 ^ 31 → ∃ plan, drain = .ok plan) ∧
    (hashes.length < 2 ^ 31 → ∀ u, (votesFor active hashes u).toInt =
      hashes.countP fun hash => (firstNodeWithSeed active hash).toOption = some u) ∧
    ∀ (τ : Type) (second : NodesSource τ) (state : τ) (batch : List BatchWriteOperation),
      (∀ u, u ∈ active ↔ u ∈ second.getActiveNodes state) → SameVotes metadata operations batch →
      (selectBatchWritePreferredNodes nodes s operations metadata).1 =
        (selectBatchWritePreferredNodes second state batch metadata).1 := by
  intro active hashes drain
  have hashed : batchWriteHashes metadata operations = hashes := batchWriteHashes_eq _ _
  obtain ⟨candidates, returned, missing⟩ :=
    queryPlanNodesForHashes_missing asked general (sortAndDedupeNodes active)
  simp only [mem_sortAndDedupeNodes] at missing
  have planned : drain = drainResult (batchWritePlan active candidates operations metadata) := by
    simp only [drain]
    rw [queryPlanForBatchWrite_fst (by rw [hashed]; exact returned)]
  have cases := drain_batchWritePlan_cases nonempty present separated (hashed.trans_ne usable)
    candidates
  refine ⟨?_, ?_, fun few u => votesFor_toInt few u, ?_⟩
  · intro plan drained
    rw [planned] at drained
    rcases cases with ⟨voted, elected, whole, distinct⟩ | ⟨_, error, thrown⟩
    · rw [drained] at whole
      cases whole
      rw [hashed] at elected
      refine ⟨voted, (sortAndDedupeNodes active).filter fun u => u ∉ voted, ?_, elected, ?_, ?_,
        distinct⟩
      · rw [← missing]
      · simp
      · exact (sortAndDedupeNodes_ascending separated).filter _
    · rw [drained] at thrown
      contradiction
  · intro small
    rw [planned]
    rcases cases with ⟨voted, _, whole, _⟩ | ⟨large, _⟩
    · exact ⟨_, whole⟩
    · exact absurd small (not_lt.mpr large)
  · intro τ second state batch same votes
    have some' : second.getActiveNodes state ≠ [] := by
      obtain ⟨u, member⟩ := List.exists_mem_of_ne_nil _ nonempty
      exact List.ne_nil_of_mem ((same u).mp member)
    have canonical : sortAndDedupeNodes (nodes.getActiveNodes s) =
        sortAndDedupeNodes (second.getActiveNodes state) := sortUnique_congr separated same
    rw [selectBatchWritePreferredNodes_eq nonempty, selectBatchWritePreferredNodes_eq some',
      ← canonical]
    exact select_congr nonempty present separated votes.hashes_perm

/-- One active node, and a node that is offered for every hash beside it. -/
theorem queryPlanForBatchWrite_voting_offered :
    let a : Url := { scheme := bytes "http", host := bytes "a", port := 8000 }
    let x : Url := { scheme := bytes "http", host := bytes "x", port := 8000 }
    let source : NodesSource Unit := ⟨fun _ => [a], fun _ => (.ok [a], ()),
      fun _ _ => (.ok [x, a], ())⟩
    let metadata : PartitionKeyMetadata := ⟨OrderedMap.empty.assign (bytes "t") (bytes "pk")⟩
    let key := AttributeValue.ofString (bytes "k")
    let operation := BatchWriteOperation.put (bytes "t") (OrderedMap.empty.assign (bytes "pk") key)
    ∃ plan, drainResult (queryPlanForBatchWrite source () [operation] metadata).1 = .ok plan := by
  intro a x source metadata key operation
  have usable : usableHashes metadata [operation] = [key.hash] := by rfl
  exact (queryPlanForBatchWrite_voting source () () [operation] metadata [x, a] []
    (by simp [source]) (by decide) (by decide) (by simp [usable]) (by rw [usable]; rfl)
    (fun none => absurd (none x (by simp)) (by decide))).2.1 (by decide)

/-- A source that offers nothing for the hash of a batch is asked for its
general nodes, which may not be active. -/
theorem queryPlanForBatchWrite_general :
    let a : Url := { scheme := bytes "http", host := bytes "a", port := 8000 }
    let x : Url := { scheme := bytes "http", host := bytes "x", port := 8000 }
    let source : NodesSource Unit := ⟨fun _ => [a], fun _ => (.ok [x, a], ()),
      fun _ _ => (.ok [], ())⟩
    let metadata : PartitionKeyMetadata := ⟨OrderedMap.empty.assign (bytes "t") (bytes "pk")⟩
    let key := AttributeValue.ofString (bytes "k")
    let operation := BatchWriteOperation.put (bytes "t") (OrderedMap.empty.assign (bytes "pk") key)
    usableHashes metadata [operation] = [key.hash] ∧
      offeredForHashes source [key.hash] () = (.ok [], ()) ∧
      ∃ plan, drainResult (queryPlanForBatchWrite source () [operation] metadata).1 = .ok plan ∧
        x ∈ plan ∧ x ∉ source.getActiveNodes () := by
  intro a x source metadata key operation
  have usable : batchWriteHashes metadata [operation] = [key.hash] := by rfl
  have asked : (queryPlanNodesForHashes source (batchWriteHashes metadata [operation]) ()).1 =
      .ok [x, a] := by rfl
  refine ⟨by rfl, rfl, ?_⟩
  rw [queryPlanForBatchWrite_fst asked]
  rcases @drain_batchWritePlan_cases [a] (by simp) (by decide) (by decide) _ _
    (usable.trans_ne (by simp)) [x, a] with ⟨voted, _, whole, _⟩ | ⟨large, _⟩
  · refine ⟨_, whole, ?_, by decide⟩
    have beyond : x ∈ nodesMissingFrom [x, a] (sortAndDedupeNodes [a]) := by decide
    simp [beyond]
  · exact absurd large (by decide)

end AlternatorClient
