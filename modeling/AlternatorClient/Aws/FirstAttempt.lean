import AlternatorClient.Aws.HttpClient
import AlternatorClient.Foundation.Decimal

/-! Which attempts of the SDK keep their endpoint. `IsFirstSdkAttempt` looks at
one byte of the attempt number, so what counts as the first attempt is every
attempt whose decimal numeral begins with the digit 1. -/
namespace AlternatorClient.Aws
open Foundation

/-- The `amz-sdk-request` header of attempt `n` of at most `m`. -/
def sdkRequestHeader (spaces n m : Nat) : Bytes :=
  bytes "attempt=" ++ (List.replicate spaces (byte ' ') ++ (decimal n ++ (bytes "; max=" ++ decimal m)))

/-- A request aimed at a node of the session, and not at the override host. -/
structure AimedAtLiveNode (request : HttpRequest) (s : Session) : Prop where
  live : ∃ node ∈ s.nodes.getNodes,
    sameEndpointHost (urlFromAwsUri request.uri).host node.host ∧ request.uri.port = node.port
  resolved : sameEndpointHost (urlFromAwsUri request.uri).host endpointOverrideHost = false

/-- Of attempt `n` only the first stays where it was aimed; any other goes to
the node that `NextNode` returns, if there is one. -/
def KeepsFirstOnly (spaces n m : Nat) : Prop :=
  ∀ (config : Config) (request : HttpRequest) (s : Session),
    request.sdkRequest = some (sdkRequestHeader spaces n m) → AimedAtLiveNode request s →
    if n = 1 then
      selectAttemptNode config request s = (urlFromAwsUri request.uri, request, s)
    else
      let (node, t) := s.nextNode config
      selectAttemptNode config request s =
        (node, if !node.empty then rewriteRequestEndpoint request node else request, t)

theorem afterMarker_append {marker rest : Bytes} (nonempty : marker ≠ []) :
    afterMarker marker (marker ++ rest) = some rest := by
  have found : marker.isPrefixOf (marker ++ rest) = true := by
    simp
  obtain ⟨c, tail, rfl⟩ := List.exists_cons_of_ne_nil nonempty
  rw [List.cons_append] at *
  rw [afterMarker, if_pos found, ← List.cons_append, List.drop_left]

theorem isFirstSdkAttempt_iff {request : HttpRequest} {spaces n m : Nat}
    (header : request.sdkRequest = some (sdkRequestHeader spaces n m)) :
    isFirstSdkAttempt request = true ↔ leadingDigit n = 1 := by
  obtain ⟨rest, numeral⟩ := decimal_head n
  have one : ∀ d < 10, (d.digitChar.toNat.toUInt8 = byte '1' ↔ d = 1) := by decide
  have notSpace : ∀ d < 10, d.digitChar.toNat.toUInt8 ≠ byte ' ' := by decide
  have small := leadingDigit_lt n
  have blanks : ∀ c ∈ List.replicate spaces (byte ' '), decide (c = byte ' ') = true := by
    simp
  simp only [isFirstSdkAttempt, header, sdkRequestHeader,
    afterMarker_append (show bytes "attempt=" ≠ [] by decide), List.dropWhile_append_of_pos blanks,
    numeral, List.cons_append, List.dropWhile_cons, notSpace _ small, decide_false]
  simpa using one _ small

theorem isAlternatorEndpoint_of_aimed {request : HttpRequest} {s : Session}
    (aimed : AimedAtLiveNode request s) (port : UInt16) :
    isAlternatorEndpoint request.uri s.nodes port = true := by
  obtain ⟨node, member, host, port⟩ := aimed.live
  simp only [urlFromAwsUri] at host
  simp only [isAlternatorEndpoint, Bool.or_eq_true, List.any_eq_true]
  exact .inr ⟨node, member, by simp [host, port]⟩

/-- An aimed request, by what its header is taken for. -/
theorem selectAttemptNode_aimed (config : Config) {request : HttpRequest} {s : Session}
    (aimed : AimedAtLiveNode request s) :
    selectAttemptNode config request s =
      if isFirstSdkAttempt request then (urlFromAwsUri request.uri, request, s)
      else
        let (node, t) := s.nextNode config
        (node, if !node.empty then rewriteRequestEndpoint request node else request, t) := by
  have known := isAlternatorEndpoint_of_aimed aimed config.port
  have host : sameEndpointHost (urlFromAwsUri request.uri).host endpointOverrideHost = false :=
    aimed.resolved
  simp only [selectAttemptNode, known, host, Bool.not_true, Bool.not_false, Bool.and_true,
    Bool.false_eq_true, if_false]

/-- An attempt at the second node, while the first is next. -/
def attemptAtSecond (spaces n m : Nat) : HttpRequest :=
  { uri := ⟨.http, bytes "b", 8080⟩, sdkRequest := some (sdkRequestHeader spaces n m) }

theorem attemptAtSecond_aimed (spaces n m : Nat) :
    AimedAtLiveNode (attemptAtSecond spaces n m) Session.couple where
  live := by
    refine ⟨({} : Config).nodeUrl (bytes "b"), by decide, ?_, ?_⟩
    · exact (by decide : sameEndpointHost (bytes "b") (bytes "b") = true)
    · rfl
  resolved := (by decide : sameEndpointHost (bytes "b") endpointOverrideHost = false)

/-- The first is next: a rewritten request would go there. -/
theorem couple_nextNode : (Session.couple.nextNode {}).1 = ({} : Config).nodeUrl (bytes "a") := by
  decide +kernel

/-- A later attempt that is taken for the first stays where it was aimed. -/
theorem attemptAtSecond_stays {spaces n m : Nat} (digit : leadingDigit n = 1) :
    selectAttemptNode {} (attemptAtSecond spaces n m) Session.couple =
      (({} : Config).nodeUrl (bytes "b"), attemptAtSecond spaces n m, Session.couple) := by
  rw [selectAttemptNode_aimed {} (attemptAtSecond_aimed spaces n m),
    if_pos ((isFirstSdkAttempt_iff rfl).mpr digit)]
  rfl

theorem not_keepsFirstOnly {spaces n m : Nat} (later : n ≠ 1) (digit : leadingDigit n = 1) :
    ¬ KeepsFirstOnly spaces n m := by
  intro kept
  have moved := kept {} (attemptAtSecond spaces n m) Session.couple rfl
    (attemptAtSecond_aimed spaces n m)
  rw [attemptAtSecond_stays digit, if_neg later] at moved
  have next := couple_nextNode
  generalize Session.couple.nextNode {} = result at moved next
  have node : ({} : Config).nodeUrl (bytes "b") = result.1 := congrArg Prod.fst moved
  rw [next] at node
  exact absurd node (by decide)

/-- The rule is kept exactly for the attempts whose number is 1 or does not
begin with that digit. -/
theorem keepsFirstOnly_iff (spaces n m : Nat) :
    KeepsFirstOnly spaces n m ↔ n = 1 ∨ leadingDigit n ≠ 1 := by
  constructor
  · intro kept
    by_contra! mistaken
    exact not_keepsFirstOnly mistaken.1 mistaken.2 kept
  · intro readable config request s header aimed
    rw [selectAttemptNode_aimed config aimed]
    split
    · rename_i first
      have digit : leadingDigit n = 1 := first ▸ leadingDigit_of_lt (n := 1) (by decide)
      rw [if_pos ((isFirstSdkAttempt_iff header).mpr digit)]
    · rename_i later
      rw [if_neg]
      rw [isFirstSdkAttempt_iff header]
      exact readable.resolve_left later

/-- Attempt 10 stays at its endpoint although another node is next: its header
contains the text that marks the first one. -/
theorem tenth_attempt_stays :
    LiveNodes.new [bytes "a", bytes "b"] {} 0 = .ok Session.couple.nodes ∧
      (selectAttemptNode {} (attemptAtSecond 0 10 12) Session.couple).2.1 =
        attemptAtSecond 0 10 12 ∧
      (Session.couple.nextNode {}).1 = ({} : Config).nodeUrl (bytes "a") ∧
      ¬ KeepsFirstOnly 0 10 12 := by
  have digit : leadingDigit 10 = 1 := by
    rw [leadingDigit_of_le (by decide)]
    exact leadingDigit_of_lt (by decide)
  refine ⟨rfl, ?_, couple_nextNode, not_keepsFirstOnly (by decide) digit⟩
  rw [attemptAtSecond_stays digit]

end AlternatorClient.Aws
