import Mathlib.Logic.Function.Basic
import Mathlib.Order.Nat

/-! Backtracking regular expressions with groups, back references and lookahead,
as Python's `re` has them. A pattern run at a cursor gives every way it can match
there, in the order in which the backtracking tries them, so that the first is
the match; `finditer` searches on from the end of each match. -/
namespace Foundation

inductive Regex (α : Type*) where
  | empty
  | satisfying (p : α → Bool)
  | seq (a b : Regex α)
  | alt (a b : Regex α)
  | star (a : Regex α)
  | group (n : Nat) (a : Regex α)
  | backref (same : α → α → Bool) (n : Nat)
  | ahead (a : Regex α)
  | notAhead (a : Regex α)

/-- A position of the text, and the spans of the groups that were matched before it. -/
structure Cursor where
  pos : Nat
  groups : Nat → Option (Nat × Nat) := fun _ => none

namespace Cursor

def advance (c : Cursor) (k : Nat) : Cursor := { c with pos := c.pos + k }

def capture (c : Cursor) (n left : Nat) : Cursor :=
  { c with groups := Function.update c.groups n (some (left, c.pos)) }

def rewind (c : Cursor) (pos : Nat) : Cursor := { c with pos := pos }

@[simp] theorem advance_pos (c : Cursor) (k : Nat) : (c.advance k).pos = c.pos + k := rfl
@[simp] theorem advance_groups (c : Cursor) (k : Nat) : (c.advance k).groups = c.groups := rfl
@[simp] theorem capture_pos (c : Cursor) (n left : Nat) : (c.capture n left).pos = c.pos := rfl
theorem capture_groups (c : Cursor) (n left m : Nat) :
    (c.capture n left).groups m = if m = n then some (left, c.pos) else c.groups m :=
  Function.update_apply _ _ _ _
@[simp] theorem rewind_pos (c : Cursor) (pos : Nat) : (c.rewind pos).pos = pos := rfl
@[simp] theorem rewind_groups (c : Cursor) (pos : Nat) : (c.rewind pos).groups = c.groups := rfl

end Cursor

variable {α : Type*}

/-- The text begins with these elements, up to `same`. -/
def agrees (same : α → α → Bool) : List α → List α → Bool
  | [], _ => true
  | _ :: _, [] => false
  | a :: wanted, b :: text => same a b && agrees same wanted text

theorem agrees_length {same : α → α → Bool} {wanted text : List α} (agree : agrees same wanted text) :
    wanted.length ≤ text.length := by
  fun_induction agrees same wanted text with
  | case1 => exact Nat.zero_le _
  | case2 => contradiction
  | case3 a wanted b text ih => exact Nat.succ_le_succ (ih (Bool.and_eq_true_iff.mp agree).2)

theorem agrees_iff {β : Type*} [DecidableEq β] (f : α → β) {wanted text : List α} :
    agrees (fun a b => f a == f b) wanted text ↔ wanted.map f <+: text.map f := by
  fun_induction agrees (fun a b => f a == f b) wanted text with
  | case1 => simp
  | case2 => simp
  | case3 a wanted b text ih => simp [ih]

namespace Regex

/-- `a?` -/
def opt (a : Regex α) : Regex α := alt a empty

/-- `a+` -/
def plus (a : Regex α) : Regex α := seq a (star a)

def seqs (parts : List (Regex α)) : Regex α := parts.foldr seq empty

/-- `first|…`, tried from left to right. -/
def alts (first : Regex α) (others : List (Regex α)) : Regex α := others.foldl alt first

def literal (same : α → α → Bool) (text : List α) : Regex α :=
  seqs (text.map fun a => satisfying (same a))

/-- As often as the body makes progress, more often first. -/
def iterate (body : Cursor → List Cursor) : Nat → Cursor → List Cursor
  | 0, c => [c]
  | fuel + 1, c =>
    ((body c).filter fun d => c.pos < d.pos).flatMap (iterate body fuel) ++ [c]

/-- The ways to match at a cursor, in the order of the backtracking. -/
def run (data : List α) : Regex α → Cursor → List Cursor
  | empty, c => [c]
  | satisfying p, c =>
    match data[c.pos]? with
    | some a => if p a then [c.advance 1] else []
    | none => []
  | seq a b, c => (run data a c).flatMap (run data b)
  | alt a b, c => run data a c ++ run data b c
  -- an iteration that goes on consumes, so there are no more than elements left
  | star a, c => iterate (run data a) (data.length - c.pos) c
  | group n a, c => (run data a c).map fun d => d.capture n c.pos
  | backref same n, c =>
    match c.groups n with
    | some (left, right) =>
      if agrees same ((data.drop left).take (right - left)) (data.drop c.pos) then
        [c.advance ((data.drop left).take (right - left)).length]
      else []
    | none => []
  -- the first way only: what is looked at is not tried again
  | ahead a, c => ((run data a c).head?.map fun d => d.rewind c.pos).toList
  | notAhead a, c => if (run data a c).isEmpty then [c] else []

/-- Without positive lookahead, whose groups reach beyond the match. -/
def plain : Regex α → Bool
  | empty | satisfying _ | backref _ _ | notAhead _ => true
  | seq a b | alt a b => plain a && plain b
  | star a | group _ a => plain a
  | ahead _ => false

theorem iterate_rule {data : List α} {P : Cursor → Prop} {body : Cursor → List Cursor}
    (step : ∀ c, c.pos ≤ data.length → P c →
      ∀ d ∈ body c, P d ∧ c.pos ≤ d.pos ∧ d.pos ≤ data.length)
    (fuel : Nat) {c : Cursor} (inside : c.pos ≤ data.length) (holds : P c) :
    ∀ d ∈ iterate body fuel c, P d ∧ c.pos ≤ d.pos ∧ d.pos ≤ data.length := by
  induction fuel generalizing c with
  | zero =>
    intro d member
    obtain rfl := List.mem_singleton.mp member
    exact ⟨holds, le_rfl, inside⟩
  | succ fuel ih =>
    intro d member
    rcases List.mem_append.mp member with later | last
    · obtain ⟨next, found, within⟩ := List.mem_flatMap.mp later
      obtain ⟨kept, forward, bound⟩ := step c inside holds next (List.mem_filter.mp found).1
      obtain ⟨result, further, stop⟩ := ih bound kept d within
      exact ⟨result, forward.trans further, stop⟩
    · obtain rfl := List.mem_singleton.mp last
      exact ⟨holds, le_rfl, inside⟩

section Rule
variable {data : List α} {P : Cursor → Prop}
  (advance : ∀ c k, P c → P (c.advance k))
  (capture : ∀ c d n, P c → P d → c.pos ≤ d.pos → P (d.capture n c.pos))
include advance capture

/-- What the primitive moves keep, every way to match keeps; and it moves forward
and stays inside the text. -/
theorem run_rule (r : Regex α)
    (look : r.plain = false → ∀ c d, P c → P d → P (d.rewind c.pos))
    {c : Cursor} (inside : c.pos ≤ data.length) (holds : P c) :
    ∀ d ∈ run data r c, P d ∧ c.pos ≤ d.pos ∧ d.pos ≤ data.length := by
  induction r generalizing c with
  | empty =>
    intro d member
    obtain rfl := List.mem_singleton.mp member
    exact ⟨holds, le_rfl, inside⟩
  | satisfying p =>
    intro d member
    rw [run] at member
    split at member
    · rename_i a found
      split at member
      · obtain rfl := List.mem_singleton.mp member
        obtain ⟨bound, -⟩ := List.getElem?_eq_some_iff.mp found
        exact ⟨advance c 1 holds, Nat.le_succ _, bound⟩
      · contradiction
    · contradiction
  | seq a b first second =>
    intro d member
    obtain ⟨middle, found, within⟩ := List.mem_flatMap.mp member
    obtain ⟨kept, forward, bound⟩ :=
      first (fun ahead => look (by rw [plain, ahead, Bool.false_and])) inside holds middle found
    obtain ⟨result, further, stop⟩ :=
      second (fun ahead => look (by rw [plain, ahead, Bool.and_false])) bound kept d within
    exact ⟨result, forward.trans further, stop⟩
  | alt a b first second =>
    intro d member
    rcases List.mem_append.mp member with one | other
    · exact first (fun ahead => look (by rw [plain, ahead, Bool.false_and])) inside holds d one
    · exact second (fun ahead => look (by rw [plain, ahead, Bool.and_false])) inside holds d other
  | star a ih => exact iterate_rule (fun c bound kept => ih look bound kept) _ inside holds
  | group n a ih =>
    intro d member
    obtain ⟨last, found, rfl⟩ := List.mem_map.mp member
    obtain ⟨kept, forward, bound⟩ := ih look inside holds last found
    exact ⟨capture c last n holds kept forward, forward, bound⟩
  | backref same n =>
    intro d member
    rw [run] at member
    split at member
    · split at member
      · rename_i agree
        obtain rfl := List.mem_singleton.mp member
        have fits := agrees_length agree
        rw [@List.length_drop _ c.pos] at fits
        refine ⟨advance c _ holds, Nat.le_add_right _ _, ?_⟩
        rw [Cursor.advance_pos]
        omega
      · contradiction
    · contradiction
  | ahead a ih =>
    intro d member
    rw [run, Option.mem_toList, Option.map_eq_some_iff] at member
    obtain ⟨last, found, rfl⟩ := member
    obtain ⟨kept, -, -⟩ := ih (fun _ => look rfl) inside holds last (List.mem_of_head? found)
    exact ⟨look rfl c last holds kept, le_rfl, inside⟩
  | notAhead a ih =>
    intro d member
    rw [run] at member
    split at member
    · obtain rfl := List.mem_singleton.mp member
      exact ⟨holds, le_rfl, inside⟩
    · contradiction

end Rule

theorem run_bounds (r : Regex α) {data : List α} {c d : Cursor} (inside : c.pos ≤ data.length)
    (member : d ∈ run data r c) : c.pos ≤ d.pos ∧ d.pos ≤ data.length :=
  (@run_rule _ data (fun _ => True) (fun _ _ _ => trivial) (fun _ _ _ _ _ _ => trivial) r
    (fun _ _ _ _ _ => trivial) _ inside trivial d member).2

/-- The groups of a pattern without positive lookahead lie inside its match. -/
theorem run_groups {r : Regex α} (plain : r.plain) {data : List α} {start : Nat} {d : Cursor}
    (inside : start ≤ data.length) (member : d ∈ run data r { pos := start }) {n left right : Nat}
    (captured : d.groups n = some (left, right)) : start ≤ left ∧ left ≤ right ∧ right ≤ d.pos := by
  have within := @run_rule _ data
    (fun c => start ≤ c.pos ∧ ∀ n left right, c.groups n = some (left, right) →
      start ≤ left ∧ left ≤ right ∧ right ≤ c.pos) ?_ ?_ r (by simp [plain]) { pos := start }
    inside ⟨le_rfl, by simp⟩ d member
  · exact within.1.2 n left right captured
  · rintro c k ⟨after, groups⟩
    refine ⟨Nat.le_add_right_of_le after, ?_⟩
    intro n left right captured
    obtain ⟨low, order, high⟩ := groups n left right captured
    exact ⟨low, order, Nat.le_add_right_of_le high⟩
  · rintro c d n ⟨after, -⟩ ⟨later, groups⟩ forward
    refine ⟨later, ?_⟩
    intro m left right captured
    rw [Cursor.capture_groups] at captured
    split at captured
    · cases captured
      exact ⟨after, forward, le_rfl⟩
    · exact groups m left right captured

end Regex

/-- A match: where it begins, and the cursor at its end. -/
structure Match where
  left : Nat
  stop : Cursor

namespace Match

def right (m : Match) : Nat := m.stop.pos

def span (m : Match) (n : Nat) : Option (Nat × Nat) := m.stop.groups n

end Match

namespace Regex

/-- The match that begins at `pos`. A search that must advance passes over the
ways that end where it started. -/
def matchAt (data : List α) (r : Regex α) (start : Nat) (mustAdvance : Bool) (pos : Nat) :
    Option Match :=
  ((run data r { pos := pos }).find? fun d => !(mustAdvance && d.pos == start)).map fun d =>
    ⟨pos, d⟩

def search (data : List α) (r : Regex α) (start : Nat) (mustAdvance : Bool) : Option Match :=
  (List.range' start (data.length + 1 - start)).findSome? (matchAt data r start mustAdvance)

def finditerFrom (data : List α) (r : Regex α) : Nat → Nat → Bool → List Match
  | 0, _, _ => []
  | fuel + 1, start, mustAdvance =>
    match search data r start mustAdvance with
    | none => []
    -- an empty match is not found again
    | some m => m :: finditerFrom data r fuel m.right (m.left == m.right)

/-- A bound on the searches that are left. Every match moves the start or, if it
is empty, forbids another empty match at the same place, hence two for each
position. -/
def searches (data : List α) (start : Nat) (mustAdvance : Bool) : Nat :=
  2 * (data.length - start) + if mustAdvance then 1 else 2

def finditer (data : List α) (r : Regex α) (start : Nat := 0) (mustAdvance : Bool := false) :
    List Match :=
  finditerFrom data r (searches data start mustAdvance) start mustAdvance

section Search
variable {data : List α} {r : Regex α} {start : Nat} {mustAdvance : Bool} {m : Match}

theorem matchAt_some {pos : Nat} (found : matchAt data r start mustAdvance pos = some m) :
    m.left = pos ∧ m.stop ∈ run data r { pos := m.left } ∧ (mustAdvance → m.right ≠ start) := by
  rw [matchAt, Option.map_eq_some_iff] at found
  obtain ⟨d, first, rfl⟩ := found
  refine ⟨rfl, List.mem_of_find?_eq_some first, ?_⟩
  intro must stopped
  have accepted := List.find?_some first
  have same : d.pos = start := stopped
  simp [must, same] at accepted

theorem search_some (found : search data r start mustAdvance = some m) :
    start ≤ m.left ∧ m.left ≤ data.length ∧ matchAt data r start mustAdvance m.left = some m ∧
      ∀ pos, start ≤ pos → pos < m.left → matchAt data r start mustAdvance pos = none := by
  obtain ⟨before, pos, after, split, here, none⟩ := List.findSome?_eq_some_iff.mp found
  obtain ⟨rfl, -⟩ := matchAt_some here
  have member : m.left ∈ List.range' start (data.length + 1 - start) := by simp [split]
  rw [List.mem_range'_1] at member
  refine ⟨member.1, by omega, here, ?_⟩
  intro q low below
  apply none
  have earlier : q ∈ before ++ m.left :: after := by
    rw [← split, List.mem_range'_1]
    omega
  have ascending : (before ++ m.left :: after).Pairwise (· < ·) :=
    split ▸ List.pairwise_lt_range'
  rcases List.mem_append.mp earlier with first | rest
  · exact first
  · have behind := List.pairwise_cons.mp (List.pairwise_append.mp ascending).2.1
    rcases List.mem_cons.mp rest with rfl | later
    · exact absurd below (lt_irrefl _)
    · exact absurd (behind.1 q later) (lt_asymm below)

theorem search_isSome {pos : Nat} (low : start ≤ pos) (inside : pos ≤ data.length)
    (found : (matchAt data r start mustAdvance pos).isSome) :
    (search data r start mustAdvance).isSome := by
  rw [search, List.findSome?_isSome_iff]
  exact ⟨pos, List.mem_range'_1.mpr (by omega), found⟩

theorem searches_lt (found : search data r start mustAdvance = some m) :
    searches data m.right (m.left == m.right) < searches data start mustAdvance := by
  obtain ⟨low, inside, here, -⟩ := search_some found
  obtain ⟨-, member, advanced⟩ := matchAt_some here
  obtain ⟨forward, bound⟩ := run_bounds r inside member
  change m.left ≤ m.right at forward
  change m.right ≤ data.length at bound
  have weight : (if m.left = m.right then 1 else 2) ≤ 2 := by split <;> decide
  simp only [searches, beq_iff_eq]
  cases mustAdvance with
  | true =>
    have ahead : m.right ≠ start := advanced rfl
    rw [if_pos rfl]
    omega
  | false =>
    rw [if_neg Bool.false_ne_true]
    split <;> omega

theorem searches_pos : 0 < searches data start mustAdvance := by
  unfold searches
  split <;> omega

/-- Fuel beyond the number of searches changes nothing, so the fuel is no limit on
what is found. -/
theorem finditerFrom_congr {fuel fuel' : Nat} (enough : searches data start mustAdvance ≤ fuel)
    (enough' : searches data start mustAdvance ≤ fuel') :
    finditerFrom data r fuel start mustAdvance = finditerFrom data r fuel' start mustAdvance := by
  induction fuel generalizing fuel' start mustAdvance with
  | zero => exact absurd enough (not_le.mpr searches_pos)
  | succ fuel ih =>
    cases fuel' with
    | zero => exact absurd enough' (not_le.mpr searches_pos)
    | succ fuel' =>
      rw [finditerFrom, finditerFrom]
      split
      · rfl
      · rename_i m found
        have fewer := searches_lt found
        rw [@ih _ _ fuel' (by omega) (by omega)]

theorem finditer_eq :
    finditer data r start mustAdvance =
      match search data r start mustAdvance with
      | none => []
      | some m => m :: finditer data r m.right (m.left == m.right) := by
  have more : searches data start mustAdvance ≤ searches data start mustAdvance + 1 := Nat.le_succ _
  rw [finditer, finditerFrom_congr le_rfl more, finditerFrom]
  split
  · rfl
  · rename_i m found
    rw [finditer, finditerFrom_congr (searches_lt found).le le_rfl]

/-- The searches from any state, by the number of those that are left. -/
theorem finditer_induction {motive : Nat → Bool → Prop}
    (step : ∀ start mustAdvance, (∀ m, search data r start mustAdvance = some m →
      motive m.right (m.left == m.right)) → motive start mustAdvance)
    (start : Nat) (mustAdvance : Bool) : motive start mustAdvance := by
  induction budget : searches data start mustAdvance using Nat.strongRecOn generalizing
    start mustAdvance with
  | ind budget ih =>
    apply step
    intro m found
    exact ih _ (budget ▸ searches_lt found) _ _ rfl

/-- Every match was found by the pattern, and begins at or after the end of the one before. -/
theorem finditer_sound :
    (∀ m ∈ finditer data r start mustAdvance,
      start ≤ m.left ∧ m.left ≤ data.length ∧ m.stop ∈ run data r { pos := m.left }) ∧
    (finditer data r start mustAdvance).Pairwise fun m m' => m.right ≤ m'.left := by
  induction start, mustAdvance using @finditer_induction _ data r with
  | step start mustAdvance ih =>
    rw [finditer_eq]
    split
    · simp
    · rename_i m found
      obtain ⟨low, inside, here, -⟩ := search_some found
      obtain ⟨-, member, -⟩ := matchAt_some here
      obtain ⟨sound, ordered⟩ := ih m found
      have forward : m.left ≤ m.right := (run_bounds r inside member).1
      constructor
      · intro m' listed
        rcases List.mem_cons.mp listed with rfl | later
        · exact ⟨low, inside, member⟩
        · obtain ⟨after, rest⟩ := sound m' later
          exact ⟨low.trans (forward.trans after), rest⟩
      · exact List.pairwise_cons.mpr ⟨fun m' later => (sound m' later).1, ordered⟩

/-- A pattern that consumes nothing is found wherever it matches. -/
theorem finditer_complete (still : ∀ c, ∀ d ∈ run data r c, d.pos = c.pos) {pos : Nat} {d : Cursor}
    (low : start ≤ pos) (advanced : mustAdvance → start < pos) (inside : pos ≤ data.length)
    (first : (run data r { pos := pos }).head? = some d) :
    ⟨pos, d⟩ ∈ finditer data r start mustAdvance := by
  induction start, mustAdvance using @finditer_induction _ data r with
  | step start mustAdvance ih =>
    have here : matchAt data r start mustAdvance pos = some ⟨pos, d⟩ := by
      obtain ⟨rest, ways⟩ := List.head?_eq_some_iff.mp first
      have stays : d.pos = pos := still { pos := pos } d (by simp [ways])
      have moved : (mustAdvance && d.pos == start) = false := by
        cases mustAdvance with
        | false => rfl
        | true => simpa [stays] using (advanced rfl).ne'
      rw [matchAt, ways, List.find?_cons_of_pos (by simp [moved]), Option.map_some]
    have some := search_isSome low inside (Option.isSome_of_eq_some here)
    rw [finditer_eq]
    split
    · rename_i missed
      rw [missed] at some
      contradiction
    · rename_i m found
      obtain ⟨after, within, there, none⟩ := search_some found
      obtain ⟨-, member, -⟩ := matchAt_some there
      have stays : m.right = m.left := still _ _ member
      rcases lt_trichotomy m.left pos with earlier | same | later
      · apply List.mem_cons_of_mem
        apply ih m found
        · omega
        · omega
      · rw [same, here] at there
        cases there
        exact List.mem_cons_self
      · rw [none pos low later] at here
        contradiction

end Search

section Literal
variable (data : List α) (same : α → α → Bool) (text : List α) (c : Cursor)

theorem run_literal :
    run data (literal same text) c =
      if agrees same text (data.drop c.pos) then [c.advance text.length] else [] := by
  induction text generalizing c with
  | nil => rfl
  | cons a text ih =>
    have unfolded : run data (literal same (a :: text)) c =
        (run data (satisfying (same a)) c).flatMap (run data (literal same text)) := rfl
    rw [unfolded, run]
    by_cases inside : c.pos < data.length
    · rw [List.getElem?_eq_getElem inside, List.drop_eq_getElem_cons inside, agrees]
      have moved : (c.advance 1).advance text.length = c.advance (text.length + 1) := by
        rw [Cursor.advance, Cursor.advance, Cursor.advance, Nat.add_assoc, Nat.add_comm 1]
      by_cases agree : same a data[c.pos]
      · simp [agree, ih, moved]
      · simp [agree]
    · rw [List.getElem?_eq_none (not_lt.mp inside), List.drop_eq_nil_of_le (not_lt.mp inside)]
      rfl

/-- `(?=(text))`: found at every occurrence, also where occurrences overlap. -/
def overlapping : Regex α := ahead (group 1 (literal same text))

theorem run_overlapping :
    run data (overlapping same text) c =
      if agrees same text (data.drop c.pos) then
        [((c.advance text.length).capture 1 c.pos).rewind c.pos]
      else [] := by
  rw [overlapping, run, run, run_literal]
  split <;> rfl

variable {data same text}

theorem overlapping_still (c d : Cursor) (member : d ∈ run data (overlapping same text) c) :
    d.pos = c.pos := by
  rw [run_overlapping] at member
  split at member
  · rw [List.mem_singleton.mp member, Cursor.rewind_pos]
  · contradiction

theorem overlapping_span {m : Match} (found : m ∈ finditer data (overlapping same text)) :
    m.span 1 = some (m.left, m.left + text.length) ∧ agrees same text (data.drop m.left) ∧
      m.left ≤ data.length := by
  obtain ⟨-, inside, member⟩ := finditer_sound.1 m found
  rw [run_overlapping] at member
  split at member
  · rename_i agree
    refine ⟨?_, agree, inside⟩
    rw [Match.span, List.mem_singleton.mp member, Cursor.rewind_groups, Cursor.capture_groups,
      if_pos rfl]
    rfl
  · contradiction

theorem overlapping_found {pos : Nat} (inside : pos ≤ data.length)
    (agree : agrees same text (data.drop pos)) :
    ∃ m ∈ finditer data (overlapping same text), m.left = pos := by
  have ways : run data (overlapping same text) { pos := pos } =
      [(((Cursor.mk pos fun _ => none).advance text.length).capture 1 pos).rewind pos] := by
    rw [run_overlapping, if_pos agree]
  exact ⟨_, finditer_complete overlapping_still (Nat.zero_le _) (by simp) inside
    (by rw [ways]; rfl), rfl⟩

end Literal

end Regex
end Foundation
