import AlternatorClient.Guard
import AlternatorClient.Foundation.Runs

/-! What `redact` leaves of a log. The spans reach the loop in the order of their
left ends, whichever pattern they come from; the loop then has the bytes before
`start` written and the run from `start` to `end` pending, and every run of
covered bytes becomes one marker. -/
namespace AlternatorClient.Guard
open Foundation Foundation.Regex

/-- The form stands at this position, in any case if it holds a percent sign. -/
def Occurs (value data : Bytes) (i : Nat) : Prop :=
  if value.contains (byte '%') then value.map foldCase <+: (data.drop i).map foldCase
  else value <+: data.drop i

instance (value data : Bytes) (i : Nat) : Decidable (Occurs value data i) :=
  inferInstanceAs <| Decidable <| if value.contains (byte '%') then
    value.map foldCase <+: (data.drop i).map foldCase else value <+: data.drop i

/-- The positions to be redacted: those of an occurrence of a form, and those of
the value of a credential that a pattern matched. -/
def Covered (data : Bytes) (forms : List Bytes) (k : Nat) : Prop :=
  (∃ value ∈ forms, ∃ i ≤ k, Occurs value data i ∧ k < i + value.length) ∨
    ∃ pattern ∈ credentialPatterns, ∃ span ∈ spans data pattern.1 pattern.2,
      span.1 ≤ k ∧ k < span.2

instance (data : Bytes) (forms : List Bytes) : DecidablePred (Covered data forms) := fun _ =>
  inferInstanceAs (Decidable (_ ∨ _))

/-- What the loop has done, with the spans that are left: it has written what is
before `start`, where a run begins if anything is covered there, and from there
on the covered positions are those before `stop` and those of the spans. -/
structure Pending (covered : Nat → Prop) [DecidablePred covered] (data : Bytes) (rest : List Span)
    (c : Cursors) : Prop where
  written : c.output = stretch marker covered data 0 c.start
  fresh : c.start = 0 ∨ ¬covered (c.start - 1)
  order : c.start ≤ c.stop
  bound : c.stop ≤ data.length
  covers : ∀ k, c.start ≤ k → (covered k ↔ k < c.stop ∨ ∃ span ∈ rest, span.1 ≤ k ∧ k < span.2)
  spans : ∀ span ∈ rest, c.start ≤ span.1 ∧ span.1 ≤ span.2 ∧ span.2 ≤ data.length
  ascending : rest.Pairwise fun s t => s.1 ≤ t.1

section Loop
variable {covered : Nat → Prop} [DecidablePred covered] {data : Bytes} {rest : List Span}
  {span : Span} {c : Cursors}

/-- Closing the pending run writes everything up to its end. -/
theorem Pending.close_eq (pending : Pending covered data rest c) :
    c.close = stretch marker covered data 0 c.stop := by
  have run : c.close = c.output ++ stretch marker covered data c.start c.stop := by
    by_cases nonempty : c.start < c.stop
    · rw [Cursors.close, if_pos nonempty, stretch_covered nonempty _ pending.fresh]
      intro i low below
      exact (pending.covers i low).mpr (.inl below)
    · have same : c.stop = c.start := le_antisymm (not_lt.mp nonempty) pending.order
      rw [Cursors.close, if_neg nonempty, same, stretch_self, List.append_nil]
  rw [run, pending.written, stretch_append (Nat.zero_le _) pending.order]

theorem Pending.left_le (pending : Pending covered data (span :: rest) c) :
    ∀ other ∈ span :: rest, span.1 ≤ other.1 := by
  intro other member
  rcases List.mem_cons.mp member with rfl | later
  · exact le_rfl
  · exact (List.pairwise_cons.mp pending.ascending).1 other later

/-- Nothing is covered between the end of the pending run and the next span. -/
theorem Pending.gap (pending : Pending covered data (span :: rest) c) {i : Nat}
    (low : c.stop ≤ i) (below : i < span.1) : ¬covered i := by
  rw [pending.covers i (pending.order.trans low)]
  rintro (before | ⟨other, member, left, -⟩)
  · omega
  · have behind := pending.left_le other member
    omega

/-- Taking the next span into the run keeps the covered positions, from any
position on before which no covered one is lost. -/
theorem Pending.covers_next (pending : Pending covered data (span :: rest) c) {k : Nat}
    (low : c.start ≤ k) (reached : span.1 ≤ c.stop ∨ span.1 ≤ k) :
    covered k ↔ k < max c.stop span.2 ∨ ∃ other ∈ rest, other.1 ≤ k ∧ k < other.2 := by
  rw [pending.covers k low, List.exists_mem_cons_iff, ← or_assoc]
  apply or_congr_left
  omega

theorem Pending.fold (pending : Pending covered data (span :: rest) c) :
    Pending covered data rest (c.fold data span) := by
  obtain ⟨low, forward, inside⟩ := pending.spans span List.mem_cons_self
  have order := pending.order
  have bound := pending.bound
  have later := (List.pairwise_cons.mp pending.ascending).2
  have behind : ∀ other ∈ rest, span.1 ≤ other.1 ∧ c.start ≤ other.1 ∧ other.1 ≤ other.2 ∧
      other.2 ≤ data.length := by
    intro other member
    have listed := List.mem_cons_of_mem span member
    exact ⟨pending.left_le other listed, pending.spans other listed⟩
  unfold Cursors.fold
  split
  · rename_i apart
    refine ⟨?_, ?_, ?_, ?_, ?_, ?_, later⟩
    · change c.close ++ _ = _
      rw [pending.close_eq, ← stretch_uncovered (forward.trans inside) fun i => pending.gap,
        stretch_append (Nat.zero_le _) apart.le]
    · exact .inr (pending.gap (Nat.le_sub_one_of_lt apart) (Nat.sub_one_lt_of_lt apart))
    · exact forward.trans (Nat.le_max_right _ _)
    · exact max_le bound inside
    · intro k reached
      exact pending.covers_next (low.trans reached) (.inr reached)
    · intro other member
      obtain ⟨left, -, rest⟩ := behind other member
      exact ⟨left, rest⟩
  · rename_i touching
    refine ⟨pending.written, pending.fresh, order.trans (Nat.le_max_left _ _), max_le bound inside, ?_, ?_,
      later⟩
    · intro k reached
      exact pending.covers_next reached (.inl (not_lt.mp touching))
    · intro other member
      exact (behind other member).2

theorem Pending.foldl (pending : Pending covered data rest c) :
    Pending covered data [] (rest.foldl (Cursors.fold data) c) := by
  induction rest generalizing c with
  | nil => exact pending
  | cons span rest ih => exact ih pending.fold

theorem Pending.finish (pending : Pending covered data [] c) :
    c.close ++ data.drop c.stop = replaceRuns marker covered data := by
  have tail : stretch marker covered data c.stop data.length = data.drop c.stop := by
    rw [stretch_uncovered le_rfl, ← List.length_drop, List.take_length]
    intro i low _ here
    have either := (pending.covers i (pending.order.trans low)).mp here
    simp at either
    omega
  rw [pending.close_eq, ← tail, stretch_append (Nat.zero_le _) pending.bound, replaceRuns]

end Loop

theorem Span.le_iff {s t : Span} : Span.le s t = true ↔ s.1 < t.1 ∨ s.1 = t.1 ∧ s.2 ≤ t.2 := by
  simp [Span.le]

theorem Span.le_trans (s t u : Span) (first : Span.le s t = true) (second : Span.le t u = true) :
    Span.le s u = true := by
  rw [Span.le_iff] at *
  omega

theorem Span.le_total (s t : Span) : (Span.le s t || Span.le t s) = true := by
  rw [Bool.or_eq_true, Span.le_iff, Span.le_iff]
  omega

/-- What the iterators hand to the merge: spans of the data in the order of pairs. -/
structure Sorted (data : Bytes) (spans : List Span) : Prop where
  ascending : spans.Pairwise fun s t => Span.le s t = true
  inside : ∀ span ∈ spans, span.1 ≤ span.2 ∧ span.2 ≤ data.length

section Merge
variable {data : Bytes} {sources : List (List Span)}

theorem mem_foldl_merge {merged : List Span} {span : Span} :
    span ∈ sources.foldl (fun merged spans => merged.merge spans Span.le) merged ↔
      span ∈ merged ∨ ∃ spans ∈ sources, span ∈ spans := by
  induction sources generalizing merged with
  | nil => simp
  | cons spans sources ih =>
    rw [List.foldl_cons, ih, List.mem_merge, List.exists_mem_cons_iff, or_assoc]

theorem foldl_merge_sorted {merged : List Span} (begun : Sorted data merged)
    (sorted : ∀ spans ∈ sources, Sorted data spans) :
    Sorted data (sources.foldl (fun merged spans => merged.merge spans Span.le) merged) := by
  induction sources generalizing merged with
  | nil => exact begun
  | cons spans sources ih =>
    have next := sorted spans List.mem_cons_self
    refine ih ⟨?_, ?_⟩ fun spans member => sorted spans (List.mem_cons_of_mem _ member)
    · exact List.pairwise_merge Span.le_trans Span.le_total _ _ begun.ascending next.ascending
    · intro span member
      rcases List.mem_merge.mp member with before | added
      · exact begun.inside span before
      · exact next.inside span added

theorem mem_merge {span : Span} : span ∈ merge sources ↔ ∃ spans ∈ sources, span ∈ spans := by
  rw [merge, mem_foldl_merge]
  simp

theorem merge_sorted (sorted : ∀ spans ∈ sources, Sorted data spans) :
    Sorted data (merge sources) :=
  foldl_merge_sorted ⟨List.Pairwise.nil, by simp⟩ sorted

end Merge

/-- Without positive lookahead a span lies between the ends of its match, and the
matches follow one another. -/
theorem spans_sorted_of_plain {data : Bytes} {pattern : Pattern} (plain : pattern.plain)
    (group : Nat) : Sorted data (spans data pattern group) := by
  obtain ⟨sound, following⟩ := @finditer_sound _ data pattern 0 false
  have within : ∀ m ∈ finditer data pattern, ∀ span, m.span group = some span →
      m.left ≤ span.1 ∧ span.1 ≤ span.2 ∧ span.2 ≤ m.right := by
    intro m found span captured
    obtain ⟨-, inside, member⟩ := sound m found
    exact run_groups plain inside member captured
  constructor
  · rw [spans, List.pairwise_filterMap]
    apply List.Pairwise.imp_of_mem _ following
    intro m m' found found' after span captured span' captured'
    have first := within m found span captured
    have second := within m' found' span' captured'
    rw [Span.le_iff]
    omega
  · intro span member
    obtain ⟨m, found, captured⟩ := List.mem_filterMap.mp member
    obtain ⟨-, inside, stopped⟩ := sound m found
    obtain ⟨-, forward, right⟩ := within m found span captured
    exact ⟨forward, right.trans (run_bounds pattern inside stopped).2⟩

theorem agrees_iff_occurs {value data : Bytes} {i : Nat} :
    agrees (sameByte value) value (data.drop i) ↔ Occurs value data i := by
  unfold sameByte Occurs
  split
  · exact agrees_iff foldCase
  · have exact := @agrees_iff _ _ _ id value (data.drop i)
    rwa [List.map_id, List.map_id] at exact

/-- Every occurrence of a form has its span, and no other. -/
theorem mem_spans_form {data value : Bytes} {span : Span} :
    span ∈ spans data (formPattern value) 1 ↔
      span.1 ≤ data.length ∧ Occurs value data span.1 ∧ span.2 = span.1 + value.length := by
  rw [spans, List.mem_filterMap]
  constructor
  · rintro ⟨m, found, captured⟩
    obtain ⟨spanned, agree, inside⟩ := overlapping_span found
    rw [spanned] at captured
    cases captured
    exact ⟨inside, agrees_iff_occurs.mp agree, rfl⟩
  · rintro ⟨inside, occurs, right⟩
    obtain ⟨m, found, left⟩ := overlapping_found inside (agrees_iff_occurs.mpr occurs)
    refine ⟨m, found, ?_⟩
    rw [(overlapping_span found).1, left, ← right]

theorem Occurs.right_le {value data : Bytes} {i : Nat} (occurs : Occurs value data i)
    (inside : i ≤ data.length) : i + value.length ≤ data.length := by
  have fits := agrees_length (agrees_iff_occurs.mpr occurs)
  rw [List.length_drop] at fits
  omega

theorem spans_sorted_of_form (data value : Bytes) :
    Sorted data (spans data (formPattern value) 1) := by
  obtain ⟨sound, following⟩ := @finditer_sound _ data (formPattern value) 0 false
  constructor
  · rw [spans, List.pairwise_filterMap]
    apply List.Pairwise.imp_of_mem _ following
    intro m m' found found' after span captured span' captured'
    obtain ⟨-, inside, member⟩ := sound m found
    have forward : m.left ≤ m.right := (run_bounds _ inside member).1
    rw [(overlapping_span found).1] at captured
    rw [(overlapping_span found').1] at captured'
    cases captured
    cases captured'
    rw [Span.le_iff]
    omega
  · intro span member
    obtain ⟨inside, occurs, right⟩ := mem_spans_form.mp member
    have fits := occurs.right_le inside
    omega

theorem credentialPatterns_plain : ∀ pattern ∈ credentialPatterns, pattern.1.plain = true := by
  decide

theorem merge_sources_sorted (data : Bytes) (forms : List Bytes) :
    Sorted data (merge (sources data forms)) := by
  apply merge_sorted
  intro source member
  rcases List.mem_append.mp member with credential | form
  · obtain ⟨pattern, listed, rfl⟩ := List.mem_map.mp credential
    exact spans_sorted_of_plain (credentialPatterns_plain pattern listed) pattern.2
  · obtain ⟨value, -, rfl⟩ := List.mem_map.mp form
    exact spans_sorted_of_form data value

/-- The spans that reach the loop are those of the positions to be redacted. -/
theorem covered_iff {data : Bytes} {forms : List Bytes} {k : Nat} :
    Covered data forms k ↔ ∃ span ∈ merge (sources data forms), span.1 ≤ k ∧ k < span.2 := by
  constructor
  · rintro (⟨value, listed, i, low, occurs, high⟩ | ⟨pattern, listed, span, member, within⟩)
    · refine ⟨(i, i + value.length), mem_merge.mpr ⟨_, List.mem_append_right _
        (List.mem_map_of_mem listed), mem_spans_form.mpr ⟨?_, occurs, rfl⟩⟩, low, high⟩
      -- the occurrence has an element, so it begins inside the data
      have fits := agrees_length (agrees_iff_occurs.mpr occurs)
      rw [List.length_drop] at fits
      omega
    · exact ⟨span, mem_merge.mpr ⟨_, List.mem_append_left _ (List.mem_map_of_mem listed), member⟩,
        within⟩
  · rintro ⟨span, member, low, high⟩
    obtain ⟨source, listed, inSource⟩ := mem_merge.mp member
    rcases List.mem_append.mp listed with credential | form
    · obtain ⟨pattern, found, rfl⟩ := List.mem_map.mp credential
      exact .inr ⟨pattern, found, span, inSource, low, high⟩
    · obtain ⟨value, found, rfl⟩ := List.mem_map.mp form
      obtain ⟨-, occurs, right⟩ := mem_spans_form.mp inSource
      exact .inl ⟨value, found, span.1, low, occurs, right ▸ high⟩

/-- Before the loop nothing is written and all spans are left. -/
theorem pending_start (data : Bytes) (forms : List Bytes) :
    Pending (Covered data forms) data (merge (sources data forms)) {} := by
  have sorted := merge_sources_sorted data forms
  refine ⟨rfl, .inl rfl, le_rfl, Nat.zero_le _, ?_, ?_, ?_⟩
  · intro k _
    rw [covered_iff]
    simp
  · intro span member
    exact ⟨Nat.zero_le _, sorted.inside span member⟩
  · apply sorted.ascending.imp
    intro s t before
    rw [Span.le_iff] at before
    omega

/-- `redact` keeps every byte that is not covered, in order, and puts one marker
in the place of every maximal run of covered ones. What is covered is read off
the original bytes alone. -/
theorem redact_eq_replaceRuns (data : Bytes) (forms : List Bytes) :
    redact data forms = replaceRuns marker (Covered data forms) data :=
  (pending_start data forms).foldl.finish

/-- A marker of the input is data, and only the form behind it is redacted. -/
example : redact (bytes "[REDACTED] value") [bytes "value"] = bytes "[REDACTED] " ++ marker :=
  (pending_start _ _).foldl.finish.trans (by decide +kernel)

end AlternatorClient.Guard
