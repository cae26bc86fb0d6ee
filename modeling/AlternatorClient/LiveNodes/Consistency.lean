import AlternatorClient.LiveNodes.Mutex
import AlternatorClient.LiveNodes.Interleavings

/-! Any number of threads over one `AlternatorLiveNodes`: live nodes and health
store are in step whenever `mutex_` is free, the threads never all wait for each
other, and no turn of the round robin is lost or handed out twice. -/
namespace AlternatorClient
open Foundation Program

section
variable {ν α : Type} {config : Config} {kind : Url → Prop} {m : Monitor Shared ν}
  (outside : ∀ {counted ready update}, Mild counted ready update → m.Outside ready update)
  (world : ∀ s, m.World s → Answers config kind s)
include outside world

theorem Call.Apart.respects {counted : Prop} {p : Call α} {post : α → Prop}
    (apart : Call.Apart counted config kind post p) :
    Respects m (fun mode a => mode = none ∧ post a) none p :=
  .of_every (apart.mono outside world fun _ => id)

variable (replaces : ∀ newNodes, (∀ u ∈ newNodes, kind u) →
  Respects m (fun mode _ => mode = none) none (Call.replaceLiveNodes newNodes))
include replaces

theorem respects_updateLiveNodes :
    Respects m (fun mode _ => mode = none) none (Call.updateLiveNodes config) := by
  refine ((@Call.Apart.fetchFrom True config kind config.routingScope.chain).respects outside
    world).bind fun mode result told => ?_
  obtain ⟨rfl, told⟩ := told
  have probing : Respects m (fun mode _ => mode = none) none
      (Call.probeDownNodes >>= fun _ => .done (.ok () : Except Error Unit)) :=
    ((@Call.Apart.probeDownNodes True config kind).respects outside world).bind
      fun _ _ free => .done free.1
  cases result with
  | error error => exact .done rfl
  | ok newNodes =>
    dsimp only
    split
    · exact probing
    · refine (replaces newNodes (told newNodes rfl)).bind fun mode removed free => ?_
      subst free
      refine ((@Call.Apart.removeAssignments True config kind removed).respects outside world).bind
        fun mode _ free => ?_
      rw [free.1]
      exact probing

/-- A call keeps to a mutex if the section of a refresh does. -/
theorem respects_call (operation : Operation) :
    Respects m Pool.Ended none (operation.call config) := by
  have apart : ∀ {p : Call Reply}, Call.Apart False config kind (fun _ => True) p →
      Respects m Pool.Ended none p := fun apart =>
    (apart.respects outside world).weaken fun _ _ ended => ended.1
  cases operation with
  | updateLiveNodes =>
    rw [Operation.call, map_eq]
    exact (respects_updateLiveNodes outside world replaces).bind fun mode _ free => .done free
  | reportNodeResult node o => exact apart ((Call.Apart.reportNodeResult node o).map _)
  | probeDownNodes => exact apart (Call.Apart.probeDownNodes.map _)
  | nextNode => exact apart (Call.Apart.nextNode.map _)
  | getQueryPlanNodes => exact apart (Call.Apart.getQueryPlanNodes.map _)
  | getQueryPlanNodesForHash hash => exact apart ((Call.Apart.getQueryPlanNodesForHash hash).map _)
  | checkIfRackAndDatacenterSetCorrectly => exact apart ((Call.Apart.checkScopes _ _).map _)
  | checkIfRackDatacenterFeatureIsSupported =>
    exact apart (Call.Apart.checkIfRackDatacenterFeatureIsSupported.map _)

end

/-- `mutex_` over the nodes with a status and the live nodes. -/
def mutex (config : Config) (kind : Url → Prop) : Monitor Shared (List Url × List Url) where
  held := Shared.held
  view s := (s.nodes.healthStore.nodes, s.nodes.liveNodes)
  Right v := (∀ u, u ∈ v.1 ↔ u ∈ v.2) ∧ ∀ u ∈ v.2, kind u
  World := Answers config kind

section
variable {counted : Prop} {config : Config} {kind : Url → Prop}

theorem Mild.outside {ready : Shared → Bool} {update : Shared → Shared}
    (mild : Mild counted ready update) : (mutex config kind).Outside ready update where
  waits := mild.waits
  world _ answers _ := mild.answers answers
  held s _ _ := mild.held s
  view s _ _ := Prod.ext (mild.nodes s).statuses (mild.nodes s).live

theorem inside_atomically (v : List Url × List Url) (f : LiveNodes → LiveNodes) :
    (mutex config kind).Inside true v (fun _ => true) fun s => { s with nodes := f s.nodes } where
  waits _ _ := rfl
  world _ answers _ := answers
  held _ _ held _ := held

/-- The loop of `AddNode`: what has a status afterwards. -/
theorem respects_addNodes (one : ∀ u v, kind u → kind v → u.toString = v.toString → u = v)
    (nodes : List Url) {v : List Url × List Url} (known : ∀ u ∈ v.1, kind u)
    (fresh : ∀ u ∈ nodes, kind u) :
    Respects (mutex config kind)
      (fun mode _ => ∃ w, mode = some w ∧ w.2 = v.2 ∧ ∀ u, u ∈ w.1 ↔ u ∈ v.1 ∨ u ∈ nodes)
      (some v) (Call.addNodes nodes) := by
  induction nodes generalizing v with
  | nil => exact .done ⟨v, rfl, rfl, by simp⟩
  | cons node rest ih =>
    refine .inside (inside_atomically v fun nodes =>
      { nodes with healthStore := nodes.healthStore.addNode node }) fun s _ seen => ?_
    have statuses : v.1 = s.nodes.healthStore.nodes := by rw [← seen]; rfl
    have live : v.2 = s.nodes.liveNodes := by rw [← seen]; rfl
    have added : ∀ u, u ∈ (s.nodes.healthStore.addNode node).nodes ↔ u ∈ v.1 ∨ u = node := by
      intro u
      rw [statuses]
      apply NodeHealthStore.mem_nodes_addNode
      intro w member text
      exact one w node (known w (statuses ▸ member)) (fresh node List.mem_cons_self) text
    refine (ih ?_ fun u member => fresh u (List.mem_cons_of_mem _ member)).weaken ?_
    · intro u member
      rcases (added u).mp member with old | rfl
      · exact known u old
      · exact fresh u List.mem_cons_self
    · rintro mode _ ⟨w, rfl, same, all⟩
      refine ⟨w, rfl, same.trans live.symm, fun u => ?_⟩
      rw [all u, List.mem_cons, ← or_assoc]
      exact or_congr_left (added u)

theorem respects_removeNodes (nodes : List Url) (v : List Url × List Url) :
    Respects (mutex config kind)
      (fun mode _ => ∃ w, mode = some w ∧ w.2 = v.2 ∧
        ∀ u, u ∈ w.1 ↔ u ∈ v.1 ∧ ∀ r ∈ nodes, u.toString ≠ r.toString)
      (some v) (Call.removeNodes nodes) := by
  induction nodes generalizing v with
  | nil => exact .done ⟨v, rfl, rfl, by simp⟩
  | cons node rest ih =>
    refine .inside (inside_atomically v fun nodes =>
      { nodes with healthStore := nodes.healthStore.removeNode node }) fun s _ seen => ?_
    have statuses : v.1 = s.nodes.healthStore.nodes := by rw [← seen]; rfl
    have live : v.2 = s.nodes.liveNodes := by rw [← seen]; rfl
    refine (ih _).weaken ?_
    rintro mode _ ⟨w, rfl, same, all⟩
    refine ⟨w, rfl, same.trans live.symm, fun u => ?_⟩
    have removed : u ∈ (s.nodes.healthStore.removeNode node).nodes ↔
        u ∈ s.nodes.healthStore.nodes ∧ ∀ r ∈ [node], u.toString ≠ r.toString :=
      @NodeHealthStore.mem_nodes_foldl_removeNode s.nodes.healthStore u [node]
    rw [List.forall_mem_singleton] at removed
    rw [all u, statuses, List.forall_mem_cons, ← and_assoc]
    exact and_congr_left fun _ => removed

/-- The section of a refresh leaves live nodes and statuses the same. -/
theorem respects_replaceLiveNodes (one : ∀ u v, kind u → kind v → u.toString = v.toString → u = v)
    {newNodes : List Url} (fresh : ∀ u ∈ newNodes, kind u) :
    Respects (mutex config kind) (fun mode _ => mode = none) none
      (Call.replaceLiveNodes newNodes) := by
  refine .acquire (Monitor.Acquires.mk ?_ ?_ ?_ ?_) fun s _ right => ?_
  · intro s
    simp [mutex]
  · exact fun _ answers _ => answers
  · exact fun _ _ _ => rfl
  · exact fun _ _ _ => rfl
  obtain ⟨same, known⟩ := right
  refine (respects_addNodes one newNodes (fun u member => known u ((same u).mp member)) fresh).bind
    fun mode _ added => ?_
  obtain ⟨v, rfl, live, statuses⟩ := added
  refine .inside (inside_atomically v id) fun t _ seen => ?_
  have current : t.nodes.liveNodes = s.nodes.liveNodes := by
    have second : (mutex config kind).view t = v := seen
    exact (congrArg Prod.snd second).trans live
  refine (respects_removeNodes _ _).bind fun mode _ removed => ?_
  obtain ⟨w, rfl, _, left⟩ := removed
  refine .inside (inside_atomically w fun nodes =>
    { nodes with liveNodes := sortAndDedupeNodes newNodes }) fun r _ looked => ?_
  refine .release ⟨fun _ _ => rfl, fun _ answers _ => answers, fun _ _ _ _ => rfl⟩
    (fun q _ final => ?_) fun _ _ _ => .done rfl
  -- at the end the statuses are those of `w` and the live nodes the new ones
  have finished : (mutex config kind).view q =
      (r.nodes.healthStore.nodes, sortAndDedupeNodes newNodes) := final
  have statusesLeft : ∀ u, u ∈ r.nodes.healthStore.nodes ↔ u ∈ newNodes := by
    intro u
    have here : r.nodes.healthStore.nodes = w.1 := congrArg Prod.fst looked
    have there : t.nodes.healthStore.nodes = v.1 := congrArg Prod.fst seen
    rw [here, left u]
    change u ∈ t.nodes.healthStore.nodes ∧
      (∀ r ∈ t.nodes.liveNodes.filter fun node => decide (node ∉ newNodes),
        u.toString ≠ r.toString) ↔ _
    rw [there, statuses u, current]
    constructor
    · rintro ⟨old | new, kept⟩
      · by_contra gone
        exact kept u (by simpa using ⟨(same u).mp old, gone⟩) rfl
      · exact new
    · intro new
      refine ⟨.inr new, fun removed member text => ?_⟩
      obtain ⟨old, gone⟩ := List.mem_filter.mp member
      have equal : u = removed := one u removed (fresh u new) (known removed old) text
      simp [← equal, new] at gone
  change (mutex config kind).Right ((mutex config kind).view q)
  rw [finished]
  refine ⟨fun u => ?_, fun u member => ?_⟩
  · rw [statusesLeft, mem_sortAndDedupeNodes]
  · exact fresh u (mem_sortAndDedupeNodes.mp member)

end

def bareMutex : Monitor Shared Unit where
  held := Shared.held
  view _ := ()
  Right _ := True
  World _ := True

theorem Mild.outside_bare {counted : Prop} {ready : Shared → Bool} {update : Shared → Shared}
    (mild : Mild counted ready update) : bareMutex.Outside ready update where
  waits := mild.waits
  world _ _ _ := trivial
  held s _ _ := mild.held s
  view _ _ _ := rfl

theorem inside_bare (f : LiveNodes → LiveNodes) :
    bareMutex.Inside true () (fun _ => true) fun s => { s with nodes := f s.nodes } where
  waits _ _ := rfl
  world _ _ _ := trivial
  held _ _ held _ := held

theorem respects_bare_addNodes (nodes : List Url) :
    Respects bareMutex (fun mode _ => mode = some ()) (some ()) (Call.addNodes nodes) := by
  induction nodes with
  | nil => exact .done rfl
  | cons node rest ih =>
    exact .inside (inside_bare fun nodes =>
      { nodes with healthStore := nodes.healthStore.addNode node }) fun _ _ _ => ih

theorem respects_bare_removeNodes (nodes : List Url) :
    Respects bareMutex (fun mode _ => mode = some ()) (some ()) (Call.removeNodes nodes) := by
  induction nodes with
  | nil => exact .done rfl
  | cons node rest ih =>
    exact .inside (inside_bare fun nodes =>
      { nodes with healthStore := nodes.healthStore.removeNode node }) fun _ _ _ => ih

theorem respects_bare_replaceLiveNodes (newNodes : List Url) :
    Respects bareMutex (fun mode _ => mode = none) none (Call.replaceLiveNodes newNodes) := by
  refine .acquire (Monitor.Acquires.mk ?_ ?_ ?_ ?_) fun _ _ _ => ?_
  · intro s
    simp [bareMutex]
  · exact fun _ _ _ => trivial
  · exact fun _ _ _ => rfl
  · exact fun _ _ _ => rfl
  refine (respects_bare_addNodes newNodes).bind fun mode _ held => ?_
  subst held
  refine .inside (inside_bare id) fun _ _ _ => ?_
  refine (respects_bare_removeNodes _).bind fun mode _ held => ?_
  subst held
  refine .inside (inside_bare fun nodes =>
    { nodes with liveNodes := sortAndDedupeNodes newNodes }) fun _ _ _ => ?_
  refine .release ⟨fun _ _ => rfl, fun _ _ _ => trivial, fun _ _ _ _ => rfl⟩
    (fun _ _ _ => trivial) fun _ _ _ => .done rfl

section
variable {ι : Type} [DecidableEq ι]

/-- Threads over a client fresh from the constructor, all of whose nodes are
spelled in one way: whenever `mutex_` is free, the live nodes and the nodes of
the health store are the same and each is in exactly one state, whatever the
threads do and wherever they are. -/
theorem liveNodes_in_step_among_threads (hosts : List Bytes) (config : Config) (now : Int)
    (calls : ι → Operation) (shared : Shared) (kind : Url → Prop)
    (turns : List (Turn ι Shared Reply)) (pool : Pool ι Shared Reply)
    (built : LiveNodes.new hosts config now = .ok shared.nodes) (free : shared.held = false)
    (one : ∀ u v, kind u → kind v → u.toString = v.toString → u = v)
    (initial : ∀ host ∈ hosts, kind (config.nodeUrl host)) (answers : Answers config kind shared)
    (run : Pool.Run (shared.calling config calls) turns pool) (unlocked : pool.state.held = false) :
    pool.state.nodes.InStep := by
  obtain ⟨nodes, live, store, _⟩ := LiveNodes.new_ok built
  have known : ∀ u ∈ shared.nodes.liveNodes, kind u := by
    intro u member
    rw [live, nodes, mem_sortAndDedupeNodes] at member
    obtain ⟨host, listed, rfl⟩ := List.mem_map.mp member
    exact initial host listed
  have same : ∀ u, u ∈ shared.nodes.healthStore.nodes ↔ u ∈ shared.nodes.liveNodes := by
    have separated : Separates Url.toString shared.nodes.initialNodes := by
      intro u left v right text
      exact one u v (known u (live ▸ left)) (known v (live ▸ right)) text
    intro u
    rw [store, live, NodeHealthStore.new, NodeHealthStore.mem_nodes_foldl_addNode]
    · simp [NodeHealthStore.nodes, OrderedMap.keys, OrderedMap.empty]
    · exact separated
  have guarded := run.guarded (m := mutex config kind) answers free ⟨same, known⟩
    fun i => respects_call Mild.outside (fun _ => id)
      (fun _ fresh => respects_replaceLiveNodes one fresh) (calls i)
  rcases guarded.2 with ⟨_, right, _⟩ | ⟨taken, _⟩
  · exact LiveNodes.inStep_of_same right.1
  · exact absurd (taken.symm.trans unlocked) (by simp)

/-- Of two threads that refresh a client from one node to another one has returned,
and what is live and what has a status is the same. -/
theorem liveNodes_in_step_among_two :
    ∃ nodes turns pool reply, LiveNodes.new [bytes "a"] {} 0 = .ok nodes ∧
      Pool.Run (twoCallers (.still nodes ⟨fun _ _ => .ok ⟨200, bytes "[\"b\"]"⟩⟩)
        .updateLiveNodes) turns pool ∧
      pool.threads true = .done reply ∧ pool.state.nodes.InStep := by
  obtain ⟨nodes, built⟩ : ∃ nodes, LiveNodes.new [bytes "a"] {} 0 = .ok nodes := ⟨_, rfl⟩
  let kind : Url → Prop := fun u =>
    u ∈ [({} : Config).nodeUrl (bytes "a"), ({} : Config).nodeUrl (bytes "b")]
  have separated : Separates Url.toString
      [({} : Config).nodeUrl (bytes "a"), ({} : Config).nodeUrl (bytes "b")] := by decide +kernel
  have answers : Answers {} kind
      (Session.still nodes ⟨fun _ _ => .ok ⟨200, bytes "[\"b\"]"⟩⟩).shared := by
    intro n endpoint listed read u member
    have told : Call.nodesOfResponse {} endpoint (.ok ⟨200, bytes "[\"b\"]"⟩) =
        .ok [({} : Config).nodeUrl (bytes "b")] := rfl
    have same := told.symm.trans read
    cases same
    exact List.mem_cons_of_mem _ member
  obtain ⟨turns, pool, run, returned, reached⟩ := @twoCallers_run _ .updateLiveNodes _ _
    (Alone.updateLiveNodes.map (Reply.ofExcept fun _ => .unit)
      (.still nodes ⟨fun _ _ => .ok ⟨200, bytes "[\"b\"]"⟩⟩))
  refine ⟨nodes, turns, pool, _, built, run, returned, ?_⟩
  refine liveNodes_in_step_among_threads [bytes "a"] {} 0 _ _ kind turns pool built rfl
    (fun u v left right => separated left right) ?_ answers run (reached ▸ rfl)
  intro host member
  rw [List.mem_singleton.mp member]
  exact List.mem_cons_self

/-- From every state that any interleaving of any calls reaches: no schedule goes
on for ever, and one that cannot be carried on has brought every call to its end
and left `mutex_` free. So no two calls ever wait for each other. -/
theorem threads_come_to_an_end [Fintype ι] (config : Config) (calls : ι → Operation)
    (shared : Shared) (turns : List (Turn ι Shared Reply)) (pool : Pool ι Shared Reply)
    (free : shared.held = false) (run : Pool.Run (shared.calling config calls) turns pool) :
    (¬ ∃ schedule : Nat → Pool ι Shared Reply, schedule 0 = pool ∧
      ∀ n, ∃ turn, Pool.Step (schedule n) turn (schedule (n + 1))) ∧
    (∀ more final, Pool.Run pool more final → (∀ turn next, ¬ Pool.Step final turn next) →
      (∀ i, ∃ reply, final.threads i = .done reply) ∧ final.state.held = false) ∧
    ∃ more final, Pool.Run pool more final ∧ ∀ i, ∃ reply, final.threads i = .done reply := by
  have ends : ∀ more final, Pool.Run pool more final →
      (∀ turn next, ¬ Pool.Step final turn next) →
      (∀ i, ∃ reply, final.threads i = .done reply) ∧ final.state.held = false := by
    intro more final continued stuck
    have guarded := (run.append continued).guarded (m := bareMutex) trivial free trivial
      fun i => @respects_call _ config (fun _ => True) _ Mild.outside_bare
        (fun _ _ _ _ _ _ _ _ => trivial) (fun nodes _ => respects_bare_replaceLiveNodes nodes)
        (calls i)
    have all : ∀ i, ∃ reply, final.threads i = .done reply := by
      intro i
      by_contra left
      push Not at left
      obtain ⟨turn, next, step⟩ := guarded.progress left
      exact stuck turn next step
    exact ⟨all, guarded.ended all⟩
  refine ⟨?_, ends, ?_⟩
  · rintro ⟨schedule, _, steps⟩
    exact (wellFounded_iff_isEmpty_descending_chain.mp Pool.step_wellFounded).false
      ⟨schedule, steps⟩
  · obtain ⟨more, final, continued, stuck⟩ := pool.exists_final
    exact ⟨more, final, continued, (ends more final continued stuck).1⟩

end

/-- Two threads are about to refresh and neither has begun: some schedule lets both
of them return. -/
theorem two_threads_come_to_an_end :
    ∃ more final, Pool.Run (twoCallers .couple .updateLiveNodes) more final ∧
      ∀ i, ∃ reply, final.threads i = .done reply :=
  (threads_come_to_an_end {} (fun _ : Bool => .updateLiveNodes) _ [] _ rfl (.refl _)).2.2
end AlternatorClient
