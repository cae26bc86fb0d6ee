import AlternatorClient.LocalNodes.Grammar

/-! `ParseJsonStringArray` with the position and the unguarded reads of the
source. A read outside the body and a loop that does not end are outcomes of
their own here, and neither is ever reached. -/
namespace AlternatorClient
open Foundation

namespace ParseJsonStringArray

/-- What ends a run before it returns: the parser throws, it reads outside of the
body, or it has used up the turns it was given. -/
inductive Stop
  | threw (error : Error)
  | outside
  | unfinished

namespace Positions

def fail {α : Type} (text : String) : Except Stop α := .error (.threw (.runtimeError (bytes text)))

/-- `body[pos]` -/
def read (body : Bytes) (pos : Nat) : Except Stop UInt8 :=
  match body[pos]? with
  | some ch => .ok ch
  | none => .error .outside

def skipWs (body : Bytes) : Nat → Nat → Except Stop Nat
  | 0, _ => .error .unfinished
  | turns + 1, pos =>
    if pos < body.length then do
      let ch ← read body pos
      if isSpace ch then skipWs body turns (pos + 1) else return pos
    else return pos

def expect (body : Bytes) (bound : Nat) (ch : UInt8) (pos : Nat) : Except Stop Nat := do
  let pos ← skipWs body bound pos
  if pos ≥ body.length then fail "invalid /localnodes JSON response"
  else do
    let found ← read body pos
    if found ≠ ch then fail "invalid /localnodes JSON response" else return pos + 1

def stringBody (body : Bytes) : Nat → Nat → Bytes → Except Stop (Bytes × Nat)
  | 0, _, _ => .error .unfinished
  | turns + 1, pos, value =>
    if pos < body.length then do
      let ch ← read body pos
      if ch = byte '"' then return (value, pos + 1)
      else if ch ≠ byte '\\' then stringBody body turns (pos + 1) (value ++ [ch])
      else if pos + 1 ≥ body.length then fail "invalid escape in /localnodes JSON response"
      else do
        let escaped ← read body (pos + 1)
        match unescape escaped with
        | none => fail "unsupported escape in /localnodes JSON response"
        | some ch => stringBody body turns (pos + 2) (value ++ [ch])
    else return (value, pos)

def elements (body : Bytes) (bound : Nat) : Nat → Nat → List Bytes →
    Except Stop (List Bytes × Nat)
  | 0, _, _ => .error .unfinished
  | turns + 1, pos, out => do
    let pos ← expect body bound (byte '"') pos
    let (value, pos) ← stringBody body bound pos []
    let pos ← skipWs body bound pos
    if pos ≥ body.length then fail "unterminated /localnodes JSON response"
    else do
      let ch ← read body pos
      if ch = byte ']' then return (out ++ [value], pos + 1)
      else do
        let pos ← expect body bound (byte ',') pos
        elements body bound turns pos (out ++ [value])

def finish (body : Bytes) (bound : Nat) (out : List Bytes) (pos : Nat) :
    Except Stop (List Bytes) := do
  let pos ← skipWs body bound pos
  if pos ≠ body.length then fail "invalid trailing data in /localnodes JSON response"
  else return out

/-- `pos < body.size() && body[pos] == ']'` -/
def closes (body : Bytes) (pos : Nat) : Except Stop Bool :=
  if pos < body.length then do
    let ch ← read body pos
    return ch = byte ']'
  else return false

/-- The parser on positions, as the source has it. Every loop is given `bound`
turns, and more turns than the body has bytes are never used up. -/
def parse (body : Bytes) (bound : Nat) : Except Stop (List Bytes) := do
  let pos ← expect body bound (byte '[') 0
  let pos ← skipWs body bound pos
  let closed ← closes body pos
  if closed then finish body bound [] (pos + 1)
  else do
    let (out, pos) ← elements body bound bound pos []
    finish body bound out pos

/-- The position of a list model's state: `rest` is what is left at `pos`. -/
def At (body : Bytes) (pos : Nat) (rest : Bytes) : Prop := pos ≤ body.length ∧ body.drop pos = rest

theorem at_start (body : Bytes) : At body 0 body := ⟨Nat.zero_le _, rfl⟩

theorem At.length_eq {body rest : Bytes} {pos : Nat} (here : At body pos rest) :
    pos + rest.length = body.length := by
  obtain ⟨inside, rfl⟩ := here
  rw [List.length_drop]
  omega

theorem At.cons {body rest : Bytes} {pos : Nat} {ch : UInt8} (here : At body pos (ch :: rest)) :
    pos < body.length ∧ read body pos = .ok ch ∧ At body (pos + 1) rest := by
  have length := here.length_eq
  simp only [List.length_cons] at length
  have inside : pos < body.length := by omega
  obtain ⟨_, left⟩ := here
  rw [List.drop_eq_getElem_cons inside] at left
  obtain ⟨rfl, rfl⟩ := List.cons.inj left
  exact ⟨inside, by simp [read, inside], by omega, rfl⟩

theorem At.nil {body : Bytes} {pos : Nat} (here : At body pos []) : pos = body.length := by
  simpa using here.length_eq

/-- A run over positions that does what the run over the remaining bytes does. -/
def Follows {α β : Type} (related : α → β → Prop) (run : Except Stop α) :
    Except Error β → Prop
  | .ok result => ∃ a, run = .ok a ∧ related a result
  | .error error => run = .error (.threw error)

theorem skipWs_follows {body rest : Bytes} {pos turns : Nat} (here : At body pos rest)
    (enough : rest.length < turns) :
    ∃ after, skipWs body turns pos = .ok after ∧
      At body after (ParseJsonStringArray.skipWs rest) := by
  induction turns generalizing pos rest with
  | zero => contradiction
  | succ turns ih =>
    cases rest with
    | nil =>
      have ended : ¬ pos < body.length := by simp [here.nil]
      exact ⟨pos, by rw [skipWs, if_neg ended]; rfl, here⟩
    | cons ch rest =>
      obtain ⟨inside, found, next⟩ := here.cons
      simp only [skipWs, if_pos inside, found, bind, Except.bind]
      cases space : isSpace ch with
      | true =>
        obtain ⟨after, skipped, there⟩ := ih next (Nat.lt_of_succ_lt_succ enough)
        refine ⟨after, by simpa using skipped, ?_⟩
        simpa [ParseJsonStringArray.skipWs, space] using there
      | false =>
        refine ⟨pos, by simp [pure, Except.pure], ?_⟩
        rwa [skipWs_cons space]

theorem expect_follows {body rest : Bytes} {pos bound : Nat} (ch : UInt8)
    (here : At body pos rest) (enough : rest.length < bound) :
    Follows (At body) (expect body bound ch pos) (ParseJsonStringArray.expect ch rest) := by
  obtain ⟨after, skipped, there⟩ := skipWs_follows here enough
  simp only [expect, ParseJsonStringArray.expect, skipped, bind, Except.bind]
  cases left : ParseJsonStringArray.skipWs rest with
  | nil =>
    rw [left] at there
    simp only [Follows, if_pos there.nil.ge, fail]
  | cons c tail =>
    rw [left] at there
    obtain ⟨inside, found, next⟩ := there.cons
    simp only [if_neg (not_le.mpr inside), found]
    by_cases same : c = ch
    · simp only [if_pos same, if_neg (not_not.mpr same)]
      exact ⟨_, rfl, next⟩
    · simp only [if_neg same, ne_eq, if_pos same, Follows, fail]

def Paired {α : Type} (body : Bytes) (run : α × Nat) (result : α × Bytes) : Prop :=
  run.1 = result.1 ∧ At body run.2 result.2

theorem stringBody_follows {body rest value : Bytes} {pos turns : Nat} (here : At body pos rest)
    (enough : rest.length < turns) :
    Follows (Paired body) (stringBody body turns pos value)
      (ParseJsonStringArray.stringBody rest value) := by
  induction turns generalizing pos rest value with
  | zero => contradiction
  | succ turns ih =>
    rw [stringBody, ParseJsonStringArray.stringBody.eq_def]
    cases rest with
    | nil =>
      have ended : ¬ pos < body.length := by simp [here.nil]
      rw [if_neg ended]
      exact ⟨_, rfl, rfl, here⟩
    | cons ch rest =>
      obtain ⟨inside, found, next⟩ := here.cons
      simp only [List.length_cons] at enough
      simp only [if_pos inside, found, bind, Except.bind]
      by_cases quote : ch = byte '"'
      · simp only [if_pos quote]
        exact ⟨_, rfl, rfl, next⟩
      · simp only [if_neg quote]
        by_cases plain : ch ≠ byte '\\'
        · simp only [if_pos plain]
          exact ih next (by omega)
        · simp only [if_neg plain]
          cases rest with
          | nil => simp only [if_pos next.nil.ge, Follows, fail]
          | cons escaped rest =>
            obtain ⟨within, read, further⟩ := next.cons
            simp only [if_neg (not_le.mpr within), read]
            cases unescape escaped with
            | none => simp only [Follows, fail]
            | some c =>
              simp only [List.length_cons] at enough
              exact ih further (by omega)

theorem skipWs_length_le (rest : Bytes) :
    (ParseJsonStringArray.skipWs rest).length ≤ rest.length := by
  obtain ⟨space, _, split⟩ :=
    skipWs_eq (rfl : ParseJsonStringArray.skipWs rest = ParseJsonStringArray.skipWs rest)
  have length := congrArg List.length split
  rw [List.length_append] at length
  omega

theorem expect_length_lt {ch : UInt8} {rest after : Bytes}
    (expected : ParseJsonStringArray.expect ch rest = .ok after) : after.length < rest.length := by
  obtain ⟨space, _, rfl⟩ := expect_ok expected
  simp only [List.length_append, List.length_cons]
  omega

theorem stringBody_length_le {rest value text after : Bytes}
    (scanned : ParseJsonStringArray.stringBody rest value = .ok (text, after)) :
    after.length ≤ rest.length := by
  rcases stringBody_ok scanned with rfl | ⟨content, spelled, _, rfl, _⟩
  · exact Nat.zero_le _
  · simp only [List.length_append, List.length_cons]
    omega

theorem elements_follows {body rest : Bytes} {pos bound turns turns' : Nat} {out : List Bytes}
    (here : At body pos rest) (bounded : body.length < bound) (enough : rest.length < turns)
    (enough' : rest.length < turns') :
    Follows (Paired body) (elements body bound turns pos out)
      (ParseJsonStringArray.elements turns' rest out) := by
  have within : ∀ {pos rest}, At body pos rest → rest.length < bound := by
    intro pos rest here
    have := here.length_eq
    omega
  induction turns generalizing pos rest turns' out with
  | zero => contradiction
  | succ turns ih =>
    obtain ⟨turns', rfl⟩ : ∃ n, turns' = n + 1 := ⟨turns' - 1, by omega⟩
    rw [elements, ParseJsonStringArray.elements]
    have quote := expect_follows (byte '"') here (within here)
    cases quoted : ParseJsonStringArray.expect (byte '"') rest with
    | error error =>
      rw [quoted] at quote
      simp only [Follows] at quote ⊢
      rw [quote]
      rfl
    | ok inside =>
      rw [quoted] at quote
      obtain ⟨opened, run, there⟩ := quote
      have shorter := expect_length_lt quoted
      simp only [run, bind, Except.bind]
      have string := @stringBody_follows body inside [] opened bound there (within there)
      cases scanned : ParseJsonStringArray.stringBody inside [] with
      | error error =>
        rw [scanned] at string
        simp only [Follows] at string ⊢
        rw [string]
      | ok result =>
        rw [scanned] at string
        obtain ⟨⟨value, behind⟩, run, same, there⟩ := string
        obtain rfl : value = result.1 := same
        have stringShorter := stringBody_length_le scanned
        obtain ⟨spaced, skipped, there⟩ := skipWs_follows there (within there)
        have spaceShorter := skipWs_length_le result.2
        simp only [run, skipped]
        cases left : ParseJsonStringArray.skipWs result.2 with
        | nil =>
          rw [left] at there
          simp only [if_pos there.nil.ge, Follows, fail]
        | cons c tail =>
          rw [left] at there spaceShorter
          obtain ⟨inBody, found, next⟩ := there.cons
          simp only [if_neg (not_le.mpr inBody), found]
          by_cases close : c = byte ']'
          · simp only [if_pos close]
            exact ⟨_, rfl, rfl, next⟩
          · simp only [if_neg close]
            have separator := expect_follows (byte ',') there (within there)
            cases comma : ParseJsonStringArray.expect (byte ',') (c :: tail) with
            | error error =>
              rw [comma] at separator
              simp only [Follows] at separator ⊢
              rw [separator]
            | ok after =>
              rw [comma] at separator
              obtain ⟨_, run, there⟩ := separator
              have commaShorter := expect_length_lt comma
              simp only [run]
              exact ih there (by omega) (by omega)

theorem finish_follows {body rest : Bytes} {pos bound : Nat} (out : List Bytes)
    (here : At body pos rest) (bounded : body.length < bound) :
    Follows Eq (finish body bound out pos) (ParseJsonStringArray.finish out rest) := by
  have length := here.length_eq
  obtain ⟨after, skipped, there⟩ := @skipWs_follows body rest pos bound here (by omega)
  have left := there.length_eq
  simp only [finish, ParseJsonStringArray.finish, skipped, bind, Except.bind]
  by_cases none : ParseJsonStringArray.skipWs rest = []
  · rw [none] at left
    have ended : after = body.length := by simpa using left
    simp only [if_pos none, if_neg (not_not.mpr ended)]
    exact ⟨out, rfl, rfl⟩
  · have some := List.length_pos_iff.mpr none
    have before : after ≠ body.length := by omega
    simp only [if_neg none, if_pos before, Follows, fail]

theorem closes_eq {body rest : Bytes} {pos : Nat} (here : At body pos rest) :
    closes body pos = .ok (decide (rest.head? = some (byte ']'))) := by
  cases rest with
  | nil =>
    have ended : ¬ pos < body.length := by simp [here.nil]
    simp [closes, ended, pure, Except.pure]
  | cons ch rest =>
    obtain ⟨inside, found, _⟩ := here.cons
    simp [closes, inside, found, bind, Except.bind, pure, Except.pure]

theorem parse_follows {body : Bytes} {bound : Nat} (bounded : body.length < bound) :
    Follows Eq (parse body bound) (parseJsonStringArray body) := by
  have start := expect_follows (byte '[') (at_start body) bounded
  rw [parse, parseJsonStringArray]
  cases opened : ParseJsonStringArray.expect (byte '[') body with
  | error error =>
    rw [opened] at start
    simp only [Follows] at start ⊢
    rw [start]
    rfl
  | ok rest =>
    rw [opened] at start
    obtain ⟨pos, run, there⟩ := start
    have shorter := expect_length_lt opened
    obtain ⟨after, skipped, there⟩ := @skipWs_follows body rest pos bound there (by omega)
    have spaceShorter := skipWs_length_le rest
    simp only [run, skipped, closes_eq there, bind, Except.bind]
    by_cases close : (ParseJsonStringArray.skipWs rest).head? = some (byte ']')
    · simp only [close, decide_true, if_true]
      cases left : ParseJsonStringArray.skipWs rest with
      | nil => simp [left] at close
      | cons c tail =>
        rw [left] at there
        exact finish_follows [] there.cons.2.2 bounded
    · simp only [close, decide_false, Bool.false_eq_true, if_false]
      have loop := @elements_follows body _ after bound bound body.length [] there bounded
        (by omega) (by omega)
      cases looped : ParseJsonStringArray.elements body.length
          (ParseJsonStringArray.skipWs rest) [] with
      | error error =>
        rw [looped] at loop
        simp only [Follows] at loop ⊢
        rw [loop]
      | ok result =>
        rw [looped] at loop
        obtain ⟨⟨out, pos⟩, run, same, there⟩ := loop
        simp only at same there
        simp only [run, same]
        exact finish_follows result.1 there bounded

end Positions
end ParseJsonStringArray

open LocalNodesGrammar ParseJsonStringArray in
/-- The source's run ends by itself, without a read outside the body, and with
the strings of the body exactly when the body is one of the grammar; every
other body makes it throw. -/
theorem parseJsonStringArray_grammar (body : Bytes) :
    (∀ bound > body.length,
      Positions.parse body bound = (parseJsonStringArray body).mapError Stop.threw) ∧
    (∀ values, parseJsonStringArray body = .ok values ↔ Document body values) ∧
    ((¬ ∃ values, Document body values) → ∃ error, parseJsonStringArray body = .error error) ∧
    ∀ (before inside after : Bytes) (items : List Spaced), Ws before → Ws inside → Ws after →
      (∀ item ∈ items, Ws item.before ∧ Ws item.after) →
      parseJsonStringArray (serialise before inside items after) =
        .ok (items.map Spaced.value) := by
  refine ⟨?_, fun values => ⟨parseJsonStringArray_ok, parseJsonStringArray_of⟩, ?_, ?_⟩
  · intro bound bounded
    have follows := Positions.parse_follows bounded
    cases parsed : parseJsonStringArray body with
    | error error =>
      rw [parsed] at follows
      exact follows
    | ok values =>
      rw [parsed] at follows
      obtain ⟨_, run, rfl⟩ := follows
      exact run
  · intro outside
    cases parsed : parseJsonStringArray body with
    | error error => exact ⟨error, rfl⟩
    | ok values => exact absurd ⟨values, parseJsonStringArray_ok parsed⟩ outside
  · intro before inside after items wsBefore wsInside wsAfter spaced
    exact parseJsonStringArray_of (serialise_document wsBefore wsInside wsAfter spaced)

end AlternatorClient
