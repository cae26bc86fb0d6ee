import AlternatorClient.NodeHealth.Periods

/-! Runs of the store. Whatever is called on other nodes, the status of a node
is the fold of the observations reported for it since it was added. -/
namespace AlternatorClient
open Foundation

/-- One call on the store. A probe asks each Down node at most once, so its
outcomes are a function of the node. -/
inductive StoreCall where
  | addNode (node : Url)
  | removeNode (node : Url)
  | reportNodeResult (node : Url) (observation : NodeHealthObservation)
  | probeDownNodes (probe : Url → NodeHealthStatus → NodeHealthObservation)

namespace NodeHealthStore

/-- The observations a call reports, in order, and the store it leaves. -/
def apply (store : NodeHealthStore) :
    StoreCall → List (Url × NodeHealthObservation) × NodeHealthStore
  | .addNode node => ([], store.addNode node)
  | .removeNode node => ([], store.removeNode node)
  | .reportNodeResult node observation =>
    ([(node, observation)], store.reportNodeResult node observation)
  | .probeDownNodes probe =>
    let result := store.probeDownNodes (fun node status _ => (probe node status, ())) ()
    (result.1, result.2.1)

def run (store : NodeHealthStore) : List StoreCall → NodeHealthStore
  | [] => store
  | call :: rest => (store.apply call).2.run rest

/-- The observations among the reported ones that are about the node of text `x`. -/
def reportsFor (x : Bytes) (reported : List (Url × NodeHealthObservation)) :
    List NodeHealthObservation :=
  (reported.filter fun report => report.1.toString = x).map Prod.snd

/-- The observations for the node of text `x` since it was added, if it is there. -/
def remember (x : Bytes) (history : Option (List NodeHealthObservation))
    (reported : List (Url × NodeHealthObservation)) :
    StoreCall → Option (List NodeHealthObservation)
  | .addNode node => if x = node.toString then some (history.getD []) else history
  | .removeNode node => if x = node.toString then none else history
  | .reportNodeResult _ _ => history.map (· ++ reportsFor x reported)
  | .probeDownNodes _ => history.map (· ++ reportsFor x reported)

/-- `remember` along a run that starts at a store and what is known of it. -/
def historyFrom (x : Bytes) (store : NodeHealthStore)
    (history : Option (List NodeHealthObservation)) :
    List StoreCall → Option (List NodeHealthObservation)
  | [] => history
  | call :: rest =>
    historyFrom x (store.apply call).2 (remember x history (store.apply call).1 call) rest

/-- The observations reported for a node since it was added, in a run from the
constructor. -/
def historyOf (config : NodeHealthStoreConfig) (initialNodes : List Url) (calls : List StoreCall)
    (node : Url) :
    Option (List NodeHealthObservation) :=
  historyFrom node.toString (new config initialNodes)
    (if node.toString ∈ initialNodes.map Url.toString then some [] else none) calls

/-- The store keeps of a history what a fresh status makes of it. -/
def Records (store : NodeHealthStore) (x : Bytes)
    (history : Option (List NodeHealthObservation)) : Prop :=
  (store.statuses.lookup x).map Prod.snd = history.map fun h =>
    h.foldl (fun status o => status.observe store.config o) (freshStatus store.config)

variable {store : NodeHealthStore} {x : Bytes} {history : Option (List NodeHealthObservation)}

theorem Records.addNode (records : store.Records x history) (u : Url) :
    (store.addNode u).Records x (if x = u.toString then some (history.getD []) else history) := by
  unfold Records at records ⊢
  rw [lookup_addNode, addNode_config]
  by_cases same : x = u.toString
  · cases absent : store.statuses.lookup x with
    | none =>
      rw [absent] at records
      have none : history = none := by simpa using records.symm
      simp [same, none]
    | some entry =>
      rw [absent] at records
      obtain ⟨h, rfl⟩ : ∃ h, history = some h := by
        cases history with
        | none => simp at records
        | some h => exact ⟨h, rfl⟩
      simpa [same, absent] using records
  · simpa [same] using records

theorem Records.removeNode (records : store.Records x history) (u : Url) :
    (store.removeNode u).Records x (if x = u.toString then none else history) := by
  unfold Records at records ⊢
  rw [lookup_removeNode, removeNode_config]
  by_cases same : x = u.toString
  · simp [same]
  · simpa [same] using records

theorem Records.reportNodeResult (records : store.Records x history)
    (enabled : store.config.disabled = false) (u : Url) (o : NodeHealthObservation) :
    (store.reportNodeResult u o).Records x (history.map (· ++ reportsFor x [(u, o)])) := by
  unfold Records at records ⊢
  rw [lookup_reportNodeResult enabled, reportNodeResult_config, Option.map_map, Option.map_map]
  by_cases same : x = u.toString
  · have reported : reportsFor x [(u, o)] = [o] := by simp [reportsFor, same]
    calc (store.statuses.lookup x).map _
        = ((store.statuses.lookup x).map Prod.snd).map fun status =>
          status.observe store.config o := by
          simp [same, Option.map_map, Function.comp_def]
      _ = _ := by
          rw [records, Option.map_map, reported]
          simp only [Function.comp_def, List.foldl_concat]
  · have reported : reportsFor x [(u, o)] = [] := by simp [reportsFor, Ne.symm same]
    simpa [same, reported, Function.comp_def] using records

theorem Records.reports (records : store.Records x history)
    (enabled : store.config.disabled = false) (reported : List (Url × NodeHealthObservation)) :
    (reported.foldl (fun store report => store.reportNodeResult report.1 report.2) store).Records x
      (history.map (· ++ reportsFor x reported)) := by
  induction reported generalizing store history with
  | nil => simpa [reportsFor] using records
  | cons report rest ih =>
    have split : reportsFor x (report :: rest) = reportsFor x [report] ++ reportsFor x rest := by
      simp [reportsFor, ← List.map_append, ← List.filter_append]
    have step := ih (records.reportNodeResult enabled report.1 report.2) (by simpa using enabled)
    simpa [split, Option.map_map, Function.comp_def] using step

@[simp] theorem apply_config (store : NodeHealthStore) (call : StoreCall) :
    (store.apply call).2.config = store.config := by
  cases call with
  | addNode node => rfl
  | removeNode node => rfl
  | reportNodeResult node o => exact reportNodeResult_config _ _ _
  | probeDownNodes probe =>
    simp only [apply, probeDownNodes_store]
    generalize (store.probeDownNodes _ ()).1 = reported
    induction reported generalizing store with
    | nil => rfl
    | cons report rest ih => rw [List.foldl_cons, ih, reportNodeResult_config]

/-- A store that records the history of a node still does after any call, with the
observations appended that the call makes of the node. -/
theorem Records.apply (records : store.Records x history) (enabled : store.config.disabled = false)
    (call : StoreCall) :
    (store.apply call).2.Records x (remember x history (store.apply call).1 call) := by
  cases call with
  | addNode node => exact records.addNode node
  | removeNode node => exact records.removeNode node
  | reportNodeResult node o => exact records.reportNodeResult enabled node o
  | probeDownNodes probe =>
    simp only [NodeHealthStore.apply, probeDownNodes_store, remember]
    exact records.reports enabled _

/-- After any run of calls the status of the node is a function of what was observed
of it since it was added; calls about other nodes leave no trace in it. -/
theorem Records.run (records : store.Records x history) (enabled : store.config.disabled = false)
    (calls : List StoreCall) : (store.run calls).Records x (historyFrom x store history calls) := by
  induction calls generalizing store history with
  | nil => exact records
  | cons call rest ih => exact ih (records.apply enabled call) (by simpa using enabled)

theorem run_config (store : NodeHealthStore) (calls : List StoreCall) :
    (store.run calls).config = store.config := by
  induction calls generalizing store with
  | nil => rfl
  | cons call rest ih => rw [NodeHealthStore.run, ih, apply_config]

@[simp] theorem new_config (config : NodeHealthStoreConfig) (initialNodes : List Url) :
    (new config initialNodes).config = config.normalized := by
  have kept (nodes : List Url) (store : NodeHealthStore) :
      (nodes.foldl NodeHealthStore.addNode store).config = store.config := by
    induction nodes generalizing store with
    | nil => rfl
    | cons node rest ih => rw [List.foldl_cons, ih, addNode_config]
  exact kept initialNodes _

theorem thresholdOrOne (threshold : UInt32) :
    (if threshold = 0 then 1 else threshold).toNat = max 1 threshold.toNat := by
  split
  · simp_all
  · rename_i positive
    have := mt UInt32.toNat_inj.mp positive
    rw [UInt32.toNat_zero] at this
    omega

theorem records_new (config : NodeHealthStoreConfig) (initialNodes : List Url) (x : Bytes) :
    (new config initialNodes).Records x
      (if x ∈ initialNodes.map Url.toString then some [] else none) := by
  have added (nodes : List Url) {store : NodeHealthStore}
    {history : Option (List NodeHealthObservation)}
      (empty : history.getD [] = []) (records : store.Records x history) :
      (nodes.foldl NodeHealthStore.addNode store).Records x
        (if x ∈ nodes.map Url.toString then some [] else history) := by
    induction nodes generalizing store history with
    | nil => simpa using records
    | cons node rest ih =>
      have step := ih (by split <;> simp [empty]) (records.addNode node)
      by_cases same : x = node.toString
      · simpa [same, empty] using step
      · simpa [same] using step
  exact added initialNodes rfl rfl

end NodeHealthStore

/-- What a history makes of a fresh status in a store with this configuration. -/
def statusAfter (config : NodeHealthStoreConfig) (history : List NodeHealthObservation) :
    NodeHealthStatus :=
  history.foldl (fun status o => status.observe config.normalized o)
    (NodeHealthStore.freshStatus config.normalized)

theorem explains_statusAfter (config : NodeHealthStoreConfig)
    (history : List NodeHealthObservation) :
    Explains (max 1 config.consecutiveServerErrorThreshold.toNat)
      (max 1 config.quarantineSuccessThreshold.toNat) history (statusAfter config history) :=
  explains_history (NodeHealthStore.thresholdOrOne _) (NodeHealthStore.thresholdOrOne _) (by omega)
    history

/-- In every run of an enabled store the status of a node is made by its history. -/
theorem getNodeStatus_run (config : NodeHealthStoreConfig) (enabled : config.disabled = false)
    (initialNodes : List Url) (calls : List StoreCall) (node : Url) :
    ((NodeHealthStore.new config initialNodes).run calls).getNodeStatus node =
      (NodeHealthStore.historyOf config initialNodes calls node).map (statusAfter config) := by
  have records := (NodeHealthStore.records_new config initialNodes node.toString).run
    (by simpa [NodeHealthStoreConfig.normalized] using enabled) calls
  rw [NodeHealthStore.Records, NodeHealthStore.run_config, NodeHealthStore.new_config] at records
  exact records

/-- In every run of an enabled store the state of a node is determined by what
was reported for it since it was added, and no counter that wraps shows in it. -/
theorem nodeHealth_determined_by_history (config : NodeHealthStoreConfig)
    (enabled : config.disabled = false)
    (initialNodes : List Url) (calls : List StoreCall) (node : Url) :
    let store := (NodeHealthStore.new config initialNodes).run calls
    let errors := max 1 config.consecutiveServerErrorThreshold.toNat
    let successes := max 1 config.quarantineSuccessThreshold.toNat
    match NodeHealthStore.historyOf config initialNodes calls node with
    | none => store.getNodeStatus node = none
    | some history =>
      ∃ status, store.getNodeStatus node = some status ∧
        StateOf errors successes history status.state := by
  intro store errors successes
  have status := getNodeStatus_run config enabled initialNodes calls node
  cases observed : NodeHealthStore.historyOf config initialNodes calls node with
  | none => rwa [observed] at status
  | some history =>
    rw [observed] at status
    exact ⟨_, status, (explains_statusAfter config history).stateOf⟩

/-- A node that answered again after a refused connection is in quarantine; with the
default thresholds it takes two more successes to be Active. -/
theorem nodeHealth_after_reconnection :
    let node : Url := { scheme := bytes "http", host := bytes "a", port := 8000 }
    ∃ status, ((NodeHealthStore.new {} [node]).run
        [.reportNodeResult node .connectionFailure,
          .probeDownNodes fun _ _ => .success]).getNodeStatus node =
          some status ∧
      StateOf 3 3 [.connectionFailure, .success] status.state := by
  exact nodeHealth_determined_by_history {} rfl
    [{ scheme := bytes "http", host := bytes "a", port := 8000 }]
    [.reportNodeResult { scheme := bytes "http", host := bytes "a", port := 8000 }
        .connectionFailure,
      .probeDownNodes fun _ _ => .success]
    { scheme := bytes "http", host := bytes "a", port := 8000 }

end AlternatorClient
