import AlternatorClient.HttpCompression
import AlternatorClient.Foundation.Text

/-! Comma-separated lists of encodings, as `ParseContentEncodings` splits them and
as a server reads what `BuildAcceptEncodingValue` has joined. -/
namespace AlternatorClient
open Foundation

def listTokens (value : Bytes) : List Bytes :=
  ((splitCommas [] value).map trimAscii).filter fun token => !token.isEmpty

theorem trimAscii_eq (value : Bytes) : trimAscii value = trim isSpace value := rfl

theorem isSpace_toLower (c : UInt8) : isSpace (toLower c) = isSpace c := by
  revert c
  apply forall_byte
  decide +kernel

theorem toLower_toLower (c : UInt8) : toLower (toLower c) = toLower c := by
  revert c
  apply forall_byte
  decide +kernel

theorem toLower_eq_comma (c : UInt8) : toLower c = byte ',' ↔ c = byte ',' := by
  revert c
  apply forall_byte
  decide +kernel

theorem toLowerAscii_toLowerAscii (value : Bytes) :
    toLowerAscii (toLowerAscii value) = toLowerAscii value := by
  simp [toLowerAscii, toLower_toLower]

theorem trimAscii_toLowerAscii (value : Bytes) :
    trimAscii (toLowerAscii value) = toLowerAscii (trimAscii value) :=
  trim_map isSpace toLower isSpace_toLower value

/-- A list is split at every comma outside of what was read before. -/
theorem splitCommas_append (a b current : Bytes) :
    splitCommas current (a ++ byte ',' :: b) = splitCommas current a ++ splitCommas [] b := by
  induction a generalizing current with
  | nil => simp [splitCommas]
  | cons c rest ih =>
    simp only [List.cons_append, splitCommas]
    split
    · rw [ih, List.cons_append]
    · exact ih (c :: current)

theorem splitCommas_single {value : Bytes} (single : byte ',' ∉ value) (current : Bytes) :
    splitCommas current value = [current.reverse ++ value] := by
  induction value generalizing current with
  | nil => simp [splitCommas]
  | cons c rest ih =>
    obtain ⟨other, single⟩ := not_or.mp (mt List.mem_cons.mpr single)
    rw [splitCommas, if_neg (Ne.symm other), ih single]
    simp

theorem comma_notMem_splitCommas {value current : Bytes} (plain : byte ',' ∉ current) :
    ∀ element ∈ splitCommas current value, byte ',' ∉ element := by
  induction value generalizing current with
  | nil => simpa [splitCommas] using plain
  | cons c rest ih =>
    rw [splitCommas]
    split
    · intro element member
      rcases List.mem_cons.mp member with rfl | member
      · simpa using plain
      · exact ih List.not_mem_nil element member
    · rename_i other
      exact ih (by simpa [plain] using Ne.symm other)

theorem splitCommas_map (value current : Bytes) :
    splitCommas (toLowerAscii current) (toLowerAscii value) =
      (splitCommas current value).map toLowerAscii := by
  induction value generalizing current with
  | nil => simp [splitCommas, toLowerAscii]
  | cons c rest ih =>
    have head : toLowerAscii (c :: rest) = toLower c :: toLowerAscii rest := rfl
    rw [head, splitCommas, splitCommas]
    by_cases comma : c = byte ','
    · rw [if_pos comma, if_pos ((toLower_eq_comma c).mpr comma), List.map_cons, ← ih]
      simp [toLowerAscii]
    · rw [if_neg comma, if_neg (mt (toLower_eq_comma c).mp comma)]
      exact ih (c :: current)

def Blank (text : Bytes) : Prop := ∀ c ∈ text, isSpace c = true

theorem Blank.comma_notMem {text : Bytes} (blank : Blank text) : byte ',' ∉ text := by
  intro comma
  exact absurd (blank _ comma) (by decide)

theorem Blank.nil : Blank [] := by
  intro c member
  contradiction

theorem Blank.space : Blank [byte ' '] := by
  intro c member
  obtain rfl := List.mem_singleton.mp member
  decide

theorem Blank.reverse {text : Bytes} (blank : Blank text) : Blank text.reverse := by
  intro c member
  exact blank c (List.mem_reverse.mp member)

theorem trimAscii_pad {before after : Bytes} (leading : Blank before) (trailing : Blank after)
    (value : Bytes) : trimAscii (before ++ value ++ after) = trimAscii value :=
  trim_pad isSpace leading trailing value

theorem splitCommas_skip {skipped : Bytes} (plain : byte ',' ∉ skipped) (value current : Bytes) :
    splitCommas current (skipped ++ value) = splitCommas (skipped.reverse ++ current) value := by
  induction skipped generalizing current with
  | nil => rfl
  | cons c rest ih =>
    obtain ⟨other, plain⟩ := not_or.mp (mt List.mem_cons.mpr plain)
    rw [List.cons_append, splitCommas, if_neg (Ne.symm other), ih plain]
    simp

theorem map_trim_leading {blanks : Bytes} (blank : Blank blanks) (value current : Bytes) :
    (splitCommas (current ++ blanks) value).map trimAscii =
      (splitCommas current value).map trimAscii := by
  induction value generalizing current with
  | nil =>
    have padded := trimAscii_pad blank.reverse .nil current.reverse
    simpa [splitCommas] using padded
  | cons c rest ih =>
    rw [splitCommas, splitCommas]
    split
    · have padded := trimAscii_pad blank.reverse .nil current.reverse
      simpa using padded
    · exact ih (c :: current)

theorem map_trim_trailing {blanks : Bytes} (blank : Blank blanks) (value current : Bytes) :
    (splitCommas current (value ++ blanks)).map trimAscii =
      (splitCommas current value).map trimAscii := by
  induction value generalizing current with
  | nil =>
    have padded := trimAscii_pad .nil blank current.reverse
    simpa [splitCommas, splitCommas_single blank.comma_notMem] using padded
  | cons c rest ih =>
    rw [List.cons_append, splitCommas, splitCommas]
    split
    · rw [List.map_cons, List.map_cons, ih]
    · exact ih (c :: current)

theorem listTokens_append (a b : Bytes) :
    listTokens (a ++ byte ',' :: b) = listTokens a ++ listTokens b := by
  simp [listTokens, splitCommas_append]

theorem listTokens_pad {before after : Bytes} (leading : Blank before) (trailing : Blank after)
    (value : Bytes) : listTokens (before ++ value ++ after) = listTokens value := by
  have front := map_trim_leading leading.reverse value []
  have back := map_trim_trailing trailing value before.reverse
  rw [listTokens, List.append_assoc, splitCommas_skip leading.comma_notMem, List.append_nil, back,
    ← List.nil_append before.reverse, front, ← listTokens]

theorem listTokens_trimAscii (value : Bytes) : listTokens (trimAscii value) = listTokens value := by
  obtain ⟨before, after, leading, trailing, split⟩ := exists_trim isSpace value
  have padded := listTokens_pad leading trailing (trimAscii value)
  rw [trimAscii_eq, ← split, ← trimAscii_eq] at padded
  exact padded.symm

theorem filter_map_toLowerAscii (tokens : List Bytes) :
    ((tokens.map toLowerAscii).filter fun token => !token.isEmpty) =
      (tokens.filter fun token => !token.isEmpty).map toLowerAscii := by
  have empty : (fun token : Bytes => !token.isEmpty) ∘ toLowerAscii = fun token => !token.isEmpty := by
    funext token
    simp [toLowerAscii]
  rw [List.filter_map, empty]

theorem listTokens_toLowerAscii (value : Bytes) :
    listTokens (toLowerAscii value) = (listTokens value).map toLowerAscii := by
  have split := splitCommas_map value []
  have trimmed : trimAscii ∘ toLowerAscii = toLowerAscii ∘ trimAscii :=
    funext trimAscii_toLowerAscii
  have start : toLowerAscii [] = [] := rfl
  rw [start] at split
  rw [listTokens, split, List.map_map, trimmed, ← List.map_map, filter_map_toLowerAscii, listTokens]

/-- A Content-Encoding header is parsed to its tokens in small letters, empty ones
left out. -/
theorem parseContentEncodings_eq (value : Bytes) :
    parseContentEncodings value = (listTokens value).map toLowerAscii := by
  have normalized : normalizeResponseEncoding = toLowerAscii ∘ trimAscii := rfl
  rw [parseContentEncodings, normalized, ← List.map_map, filter_map_toLowerAscii, listTokens]

theorem listTokens_normalize (name : Bytes) :
    listTokens (normalizeResponseEncoding name) = parseContentEncodings name := by
  rw [normalizeResponseEncoding, listTokens_toLowerAscii, listTokens_trimAscii,
    parseContentEncodings_eq]

theorem listTokens_single {value : Bytes} (single : byte ',' ∉ value) :
    listTokens value = if (trimAscii value).isEmpty then [] else [trimAscii value] := by
  rw [listTokens, splitCommas_single single]
  cases empty : (trimAscii value).isEmpty with
  | true => simp [empty]
  | false => simp [empty]

theorem mem_listTokens {value token : Bytes} (member : token ∈ listTokens value) :
    token ≠ [] ∧ byte ',' ∉ token ∧ trimAscii token = token := by
  simp only [listTokens, List.mem_filter, List.mem_map, Bool.not_eq_true',
    List.isEmpty_eq_false_iff] at member
  obtain ⟨⟨element, split, rfl⟩, nonempty⟩ := member
  have plain := @comma_notMem_splitCommas value [] List.not_mem_nil element split
  refine ⟨nonempty, ?_, trim_trim isSpace element⟩
  intro comma
  exact plain (mem_of_mem_trim isSpace comma)

end AlternatorClient
