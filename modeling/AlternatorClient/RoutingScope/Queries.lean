import AlternatorClient.Foundation.Text
import AlternatorClient.LiveNodes.Discovery

/-! Which scopes ask the same question. A query is the names put between the
separators as they stand, so that a name which holds `&rack=` itself is read as
a name and a rack; two scopes share a query exactly where one name splits that
way into the names of the other scope. -/
namespace AlternatorClient
open Foundation

namespace RoutingScopePtr

/-- What `NewClusterScope`, `NewDCScope` and `NewRackScope` build from non-empty names. -/
def Built : RoutingScopePtr → Prop
  | .null => False
  | .cluster => True
  | .datacenter dc _ => dc ≠ []
  | .rack dc rackName _ => dc ≠ [] ∧ rackName ≠ []

instance : DecidablePred Built
  | .null => inferInstanceAs (Decidable False)
  | .cluster => inferInstanceAs (Decidable True)
  | .datacenter dc _ => inferInstanceAs (Decidable (dc ≠ []))
  | .rack dc rackName _ => inferInstanceAs (Decidable (dc ≠ [] ∧ rackName ≠ []))

def withoutFallback : RoutingScopePtr → RoutingScopePtr
  | .null => .null
  | .cluster => .cluster
  | .datacenter dc _ => .datacenter dc .null
  | .rack dc rackName _ => .rack dc rackName .null

/-- The name holds the separator of the query between these two parts. -/
def Splits (name before after : Bytes) : Prop := name = before ++ bytes "&rack=" ++ after

/-- The datacenter of one scope holds a separator that reads as the one before
the rack of the other. -/
def Confusable : RoutingScopePtr → RoutingScopePtr → Prop
  | .datacenter name _, .rack dc rackName _ => Splits name dc rackName
  | .rack dc rackName _, .datacenter name _ => Splits name dc rackName
  | .rack dc rackName _, .rack dc' rackName' _ =>
    (∃ middle, Splits dc' dc middle ∧ Splits rackName middle rackName') ∨
      ∃ middle, Splits dc dc' middle ∧ Splits rackName' middle rackName
  | _, _ => False

/-- Two scopes ask different questions: their queries differ, so do the
endpoints at any two nodes, and what is printed for one node. -/
structure AskDifferently (s t : RoutingScopePtr) : Prop where
  queries : s.localNodesQuery ≠ t.localNodesQuery
  endpoints : ∀ node node',
    Session.localNodesEndpoint s node ≠ Session.localNodesEndpoint t node'
  printed : ∀ node : Url, node.host ≠ [] →
    (Session.localNodesEndpoint s node).toString ≠ (Session.localNodesEndpoint t node).toString

theorem separator_eq : bytes "&rack=" = byte '&' :: bytes "rack=" := by decide

theorem separator_once : byte '&' ∉ bytes "rack=" := by decide

theorem dc_ne_nil : bytes "dc=" ≠ [] := by decide

theorem datacenter_query_eq_iff {name dc rackName : Bytes} :
    bytes "dc=" ++ name = bytes "dc=" ++ dc ++ bytes "&rack=" ++ rackName ↔
      Splits name dc rackName := by
  simp only [Splits, List.append_assoc, List.append_cancel_left_eq]

theorem rack_query_eq_iff {dc rackName dc' rackName' : Bytes} :
    bytes "dc=" ++ dc ++ bytes "&rack=" ++ rackName =
        bytes "dc=" ++ dc' ++ bytes "&rack=" ++ rackName' ↔
      (dc = dc' ∧ rackName = rackName') ∨
      (∃ middle, Splits dc' dc middle ∧ Splits rackName middle rackName') ∨
      ∃ middle, Splits dc dc' middle ∧ Splits rackName' middle rackName := by
  simp only [Splits, separator_eq]
  rw [← joined_eq_iff separator_once]
  simp only [List.append_assoc, List.append_cancel_left_eq]

/-- Scopes with one query are the same but for their fallbacks, or a name is misread. -/
theorem localNodesQuery_eq_iff {s t : RoutingScopePtr} (builtS : s.Built) (builtT : t.Built) :
    s.localNodesQuery = t.localNodesQuery ↔
      s.withoutFallback = t.withoutFallback ∨ Confusable s t := by
  cases s with
  | null => exact builtS.elim
  | cluster =>
    cases t with
    | null => exact builtT.elim
    | cluster => simp [localNodesQuery, withoutFallback]
    | datacenter | rack => simp [localNodesQuery, withoutFallback, Confusable, dc_ne_nil]
  | datacenter name _ =>
    cases t with
    | null => exact builtT.elim
    | cluster => simp [localNodesQuery, withoutFallback, Confusable, dc_ne_nil]
    | datacenter => simp [localNodesQuery, withoutFallback, Confusable]
    | rack =>
      rw [localNodesQuery, localNodesQuery, datacenter_query_eq_iff]
      simp [withoutFallback, Confusable]
  | rack dc rackName _ =>
    cases t with
    | null => exact builtT.elim
    | cluster => simp [localNodesQuery, withoutFallback, Confusable, dc_ne_nil]
    | datacenter =>
      rw [localNodesQuery, localNodesQuery, eq_comm, datacenter_query_eq_iff]
      simp [withoutFallback, Confusable]
    | rack =>
      rw [localNodesQuery, localNodesQuery, rack_query_eq_iff]
      simp [withoutFallback, Confusable]

/-- A misread name is longer than what it is read as. -/
theorem Splits.ne {name before after : Bytes} (splits : Splits name before after) :
    before ≠ name := by
  rintro rfl
  have length := congrArg List.length splits
  simp only [List.length_append, separator_eq, List.length_cons] at length
  omega

def datacenterName : RoutingScopePtr → Bytes
  | .datacenter dc _ => dc
  | .rack dc _ _ => dc
  | _ => []

theorem datacenterName_withoutFallback (s : RoutingScopePtr) :
    s.withoutFallback.datacenterName = s.datacenterName := by cases s <;> rfl

/-- It takes a datacenter with the separator in its name; what a rack holds does no harm. -/
theorem Confusable.splits {s t : RoutingScopePtr} (confusable : Confusable s t) :
    (∃ after, Splits s.datacenterName t.datacenterName after) ∨
      ∃ after, Splits t.datacenterName s.datacenterName after := by
  cases s with
  | null | cluster => exact confusable.elim
  | datacenter name _ =>
    cases t with
    | null | cluster | datacenter => exact confusable.elim
    | rack dc rackName _ => exact .inl ⟨rackName, confusable⟩
  | rack dc rackName _ =>
    cases t with
    | null | cluster => exact confusable.elim
    | datacenter => exact .inr ⟨rackName, confusable⟩
    | rack =>
      rcases confusable with ⟨middle, splits, -⟩ | ⟨middle, splits, -⟩
      · exact .inr ⟨middle, splits⟩
      · exact .inl ⟨middle, splits⟩

theorem Confusable.holds_separator {s t : RoutingScopePtr} (confusable : Confusable s t) :
    bytes "&rack=" <:+: s.datacenterName ∨ bytes "&rack=" <:+: t.datacenterName := by
  rcases confusable.splits with ⟨after, splits⟩ | ⟨after, splits⟩
  · exact .inl ⟨_, after, splits.symm⟩
  · exact .inr ⟨_, after, splits.symm⟩

theorem Confusable.different {s t : RoutingScopePtr} (confusable : Confusable s t) :
    s.withoutFallback ≠ t.withoutFallback := by
  intro same
  have names := congrArg datacenterName same
  rw [datacenterName_withoutFallback, datacenterName_withoutFallback] at names
  rcases confusable.splits with ⟨after, splits⟩ | ⟨after, splits⟩
  · exact splits.ne names.symm
  · exact splits.ne names

theorem toString_withPathAndQuery_inj {u : Url} (host : u.host ≠ []) {path q q' : Bytes}
    (same : (u.withPathAndQuery path q).toString = (u.withPathAndQuery path q').toString) :
    q = q' := by
  have named : u.host.isEmpty = false := by simpa using host
  have mark : bytes "?" ≠ [] := by decide
  simp only [Url.toString, Url.withPathAndQuery, Url.authority, named, Bool.false_eq_true,
    if_false] at same
  have tails := List.append_cancel_left same
  cases q with
  | nil =>
    cases q' with
    | nil => rfl
    | cons c rest => simp [mark] at tails
  | cons c rest =>
    cases q' with
    | nil => simp [mark] at tails
    | cons d rest' => simpa using tails

/-- Equal queries make equal endpoints, and the endpoints carry their queries. -/
theorem askDifferently_iff {s t : RoutingScopePtr} :
    AskDifferently s t ↔ s.localNodesQuery ≠ t.localNodesQuery := by
  constructor
  · exact AskDifferently.queries
  · intro queries
    refine ⟨queries, ?_, ?_⟩
    · intro node node' same
      exact queries (congrArg Url.query same)
    · intro node host same
      exact queries (toString_withPathAndQuery_inj host same)

/-- Two scopes that differ in kind, datacenter or rack ask a node different
questions exactly where the text of no name is misread as a name and a further
parameter: the names are not escaped. -/
theorem scopes_ask_differently {s t : RoutingScopePtr} (builtS : s.Built) (builtT : t.Built) :
    (s.withoutFallback ≠ t.withoutFallback → AskDifferently s t) ↔ ¬Confusable s t := by
  rw [askDifferently_iff, Ne, Ne, localNodesQuery_eq_iff builtS builtT]
  constructor
  · intro claim confusable
    exact claim confusable.different (.inr confusable)
  · intro distinct different same
    exact same.elim different distinct

/-- A datacenter named `a&rack=b` is not asked for; the rack `b` of `a` is. -/
theorem localNodesQuery_collides :
    (datacenter (bytes "a&rack=b") .null).Built ∧ (rack (bytes "a") (bytes "b") .null).Built ∧
      (datacenter (bytes "a&rack=b") .null).withoutFallback ≠
        (rack (bytes "a") (bytes "b") .null).withoutFallback ∧
      ¬AskDifferently (datacenter (bytes "a&rack=b") .null) (rack (bytes "a") (bytes "b") .null) := by
  refine ⟨by decide, by decide, by decide, ?_⟩
  intro differently
  exact differently.queries (by decide)

/-- A rack and a rack of another datacenter, neither of which holds a separator. -/
theorem scopes_ask_differently_dc1 :
    ¬Confusable (rack (bytes "dc1") (bytes "rack1") .cluster)
        (rack (bytes "dc2") (bytes "rack1") .cluster) ∧
      AskDifferently (rack (bytes "dc1") (bytes "rack1") .cluster)
        (rack (bytes "dc2") (bytes "rack1") .cluster) := by
  have distinct : ¬Confusable (rack (bytes "dc1") (bytes "rack1") .cluster)
      (rack (bytes "dc2") (bytes "rack1") .cluster) := by
    intro confusable
    rcases confusable.holds_separator with first | second
    · exact absurd first (by decide)
    · exact absurd second (by decide)
  exact ⟨distinct, (scopes_ask_differently (by decide) (by decide)).mpr distinct (by decide)⟩

end RoutingScopePtr
end AlternatorClient
