import AlternatorClient.HttpClient

/-! Parsing undoes writing. Each scanner of the parser is run over a response
that a server wrote: the first blank line, the status line, the header lines,
the list of encodings, and the encodings themselves, the last applied first. -/
namespace AlternatorClient
open Foundation

theorem crlf_eq : bytes "\r\n" = [13, 10] := by decide

theorem blankLine_eq : bytes "\r\n\r\n" = [13, 10, 13, 10] := by decide

theorem isSpace_of_isDigit (c : UInt8) (digit : isDigit c = true) :
    isSpace c = false ∧ c ≠ byte '-' ∧ c ≠ byte '+' ∧ c ≠ 13 ∧ c ≠ 10 := by
  revert c
  apply forall_byte
  decide +kernel

/-! ### The status line -/

theorem readWord_word {word rest : Bytes} {first : UInt8} (head : word.head? = some first)
    (plain : ∀ c ∈ word, isSpace c = false) :
    readWord (word ++ byte ' ' :: rest) = (word, byte ' ' :: rest) := by
  have space : isSpace (byte ' ') = true := by decide
  have skipped : (word ++ byte ' ' :: rest).dropWhile isSpace = word ++ byte ' ' :: rest := by
    cases word with
    | nil => contradiction
    | cons c tail =>
      rw [List.cons_append, List.dropWhile_cons, plain c List.mem_cons_self, if_neg (by decide)]
  have inside : ∀ c ∈ word, (!isSpace c) = true := by
    intro c member
    rw [plain c member]
    rfl
  simp only [readWord, skipped, List.takeWhile_append_of_pos inside,
    List.dropWhile_append_of_pos inside]
  simp [space]

theorem readLong_decimal {n : Nat} (small : n < 2 ^ 63) (rest : Bytes) :
    readLong (byte ' ' :: (decimal n ++ byte ' ' :: rest)) = n := by
  obtain ⟨tail, numeral⟩ := decimal_head n
  have digit : isDigit ((leadingDigit n).digitChar.toNat.toUInt8) = true :=
    isDigit_digitByte (leadingDigit_lt n)
  obtain ⟨notSpace, notMinus, notPlus, -⟩ := isSpace_of_isDigit _ digit
  have skipped : (byte ' ' :: (decimal n ++ byte ' ' :: rest)).dropWhile isSpace =
      decimal n ++ byte ' ' :: rest := by
    rw [List.dropWhile_cons, if_pos (by decide), numeral, List.cons_append, List.dropWhile_cons,
      notSpace, if_neg (by decide)]
  have first : (decimal n ++ byte ' ' :: rest).head? =
      some (leadingDigit n).digitChar.toNat.toUInt8 := by
    rw [numeral]
    rfl
  have digits : (decimal n ++ byte ' ' :: rest).takeWhile isDigit = decimal n := by
    rw [List.takeWhile_append_of_pos fun c member => isDigit_of_mem_decimal member,
      List.takeWhile_cons, if_neg (by decide), List.append_nil]
  have unsigned : (some (leadingDigit n).digitChar.toNat.toUInt8 == some (byte '-')) = false ∧
      (some (leadingDigit n).digitChar.toNat.toUInt8 == some (byte '+')) = false := by
    simp [notMinus, notPlus]
  simp only [readLong, skipped, first, unsigned, Bool.or_self, Bool.false_eq_true, if_false, digits,
    digitsValue_decimal]
  omega

namespace ResponseHead
variable (head : ResponseHead)

theorem version_head : head.version.head? = some (byte 'H') := by
  obtain ⟨rest, split⟩ := head.version_http
  rw [← split]
  rfl

theorem statusLine_http : (bytes "HTTP/").isPrefixOf head.statusLine = true := by
  obtain ⟨rest, split⟩ := head.version_http
  rw [List.isPrefixOf_iff_prefix, statusLine, ← split, List.append_assoc]
  exact List.prefix_append _ _

theorem statusLine_line : OneLine head.statusLine := by
  have version : OneLine head.version :=
    ⟨fun member => absurd (head.version_word _ member) (by decide),
      fun member => absurd (head.version_word _ member) (by decide)⟩
  have code : OneLine (decimal head.statusCode) :=
    ⟨fun member => (isSpace_of_isDigit _ (isDigit_of_mem_decimal member)).2.2.2.1 rfl,
      fun member => (isSpace_of_isDigit _ (isDigit_of_mem_decimal member)).2.2.2.2 rfl⟩
  have reason := head.reason_line
  have space : (13 : UInt8) ≠ byte ' ' ∧ (10 : UInt8) ≠ byte ' ' := by decide
  simp only [OneLine, statusLine, List.mem_append, List.mem_cons] at *
  tauto

theorem lines_oneLine : ∀ line ∈ head.lines, line ≠ [] ∧ OneLine line := by
  intro line member
  obtain ⟨nonempty, plain, -⟩ := head.lines_plain line member
  exact ⟨nonempty, plain⟩

theorem lines_header : ∀ line ∈ head.lines, ¬ bytes "HTTP/" <+: line := by
  intro line member
  exact (head.lines_plain line member).2.2

theorem readWord_statusLine :
    readWord head.statusLine =
      (head.version, byte ' ' :: (decimal head.statusCode ++ byte ' ' :: head.reason)) :=
  readWord_word head.version_head head.version_word

theorem readLong_statusLine :
    readLong (byte ' ' :: (decimal head.statusCode ++ byte ' ' :: head.reason)) =
      head.statusCode := by
  have range := head.statusCode_range
  exact readLong_decimal (by omega) head.reason

end ResponseHead

/-! ### The blank line -/

/-- Header lines, each after the ending of the line before it. -/
def joined (lines : List Bytes) : Bytes := lines.flatMap fun line => 13 :: 10 :: line

theorem joined_cons (line : Bytes) (rest : List Bytes) :
    joined (line :: rest) = 13 :: 10 :: (line ++ joined rest) := rfl

theorem ResponseHead.text_eq (head : ResponseHead) (payload : Bytes) :
    head.text payload =
      head.statusLine ++ (joined head.lines ++ ([13, 10, 13, 10] ++ payload)) := by
  have shifted : ∀ lines : List Bytes, 13 :: 10 :: lines.flatMap (fun line => line ++ [13, 10]) =
      joined lines ++ [13, 10] := by
    intro lines
    induction lines with
    | nil => rfl
    | cons line rest ih =>
      rw [joined_cons, List.flatMap_cons, List.append_assoc, List.cons_append, List.cons_append,
        List.cons_append, List.nil_append, ih]
      simp
  have lines := shifted head.lines
  simp only [ResponseHead.text, crlf_eq, List.append_assoc, List.cons_append, List.nil_append]
  rw [← List.cons_append, ← List.cons_append, lines]
  simp

/-- Lines that are neither empty nor broken hold no blank line. -/
theorem find_blankLine {lines : List Bytes} (plain : ∀ line ∈ lines, line ≠ [] ∧ OneLine line)
    (payload : Bytes) :
    find [13, 10, 13, 10] (joined lines ++ ([13, 10, 13, 10] ++ payload)) =
      some (joined lines).length := by
  induction lines with
  | nil => exact find_here _ payload
  | cons line rest ih =>
    obtain ⟨⟨nonempty, noReturn, -⟩, others⟩ := List.forall_mem_cons.mp plain
    obtain ⟨c, tail, rfl⟩ := List.exists_cons_of_ne_nil nonempty
    have other : (13 : UInt8) ≠ c := fun same => noReturn (same ▸ List.mem_cons_self)
    rw [joined_cons, List.cons_append, List.cons_append, List.append_assoc, find, find,
      find_skip noReturn, ih others]
    simp [List.isPrefixOf, other]
    omega

/-! ### The header lines -/

theorem getLines_skip {skipped : Bytes} (plain : (10 : UInt8) ∉ skipped) (rest current : Bytes) :
    getLines current (skipped ++ rest) = getLines (skipped.reverse ++ current) rest := by
  induction skipped generalizing current with
  | nil => rfl
  | cons c tail ih =>
    obtain ⟨other, plain⟩ := not_or.mp (mt List.mem_cons.mpr plain)
    rw [List.cons_append, getLines, if_neg (Ne.symm other), ih plain]
    simp

theorem popCarriageReturn_plain {line : Bytes} (plain : (13 : UInt8) ∉ line) :
    popCarriageReturn line = line := by
  rw [popCarriageReturn, if_neg]
  intro last
  exact plain (List.mem_of_getLast? last)

theorem popCarriageReturn_ended (line : Bytes) : popCarriageReturn (line ++ [13]) = line := by
  simp [popCarriageReturn]

/-- The lines of a head are read back without their endings. -/
theorem getLines_joined {first : Bytes} {lines : List Bytes} (nonempty : first ≠ [])
    (line : OneLine first) (plain : ∀ line ∈ lines, line ≠ [] ∧ OneLine line) :
    (getLines [] (first ++ joined lines)).map popCarriageReturn = first :: lines := by
  induction lines generalizing first with
  | nil =>
    rw [getLines_skip line.2]
    simp [getLines, joined, nonempty, popCarriageReturn_plain line.1]
  | cons next rest ih =>
    obtain ⟨⟨nonempty', line'⟩, plain⟩ := List.forall_mem_cons.mp plain
    have ended : getLines [] (first ++ joined (next :: rest)) =
        (first ++ [13]) :: getLines [] (next ++ joined rest) := by
      rw [joined_cons, getLines_skip line.2, getLines, if_neg (by decide), getLines, if_pos rfl]
      simp
    rw [ended, List.map_cons, popCarriageReturn_ended, ih nonempty' line' plain]

def headerStep (wanted value line : Bytes) : Bytes :=
  if (bytes "HTTP/").isPrefixOf line then []
  else
    match find [byte ':'] line with
    | none => value
    | some colon =>
      if toLowerAscii (trimAscii (line.take colon)) = wanted then trimAscii (line.drop (colon + 1))
      else value

theorem scanHeaders_eq (wanted : Bytes) (lines : List Bytes) (value : Bytes) :
    scanHeaders wanted lines value =
      (lines.map popCarriageReturn).foldl (headerStep wanted) value := by
  induction lines generalizing value with
  | nil => rfl
  | cons line rest ih =>
    simp only [scanHeaders, List.map_cons, List.foldl_cons, headerStep]
    split
    · exact ih []
    · cases find [byte ':'] (popCarriageReturn line) with
      | none => exact ih value
      | some colon =>
        simp only
        split
        · exact ih _
        · exact ih value

theorem headerStep_other {line : Bytes} (header : ¬ bytes "HTTP/" <+: line)
    (other : ∀ value, ¬ ContentEncodingLine line value) (value : Bytes) :
    headerStep (bytes "content-encoding") value line = value := by
  rw [headerStep, if_neg (by rwa [List.isPrefixOf_iff_prefix])]
  cases found : find [byte ':'] line with
  | none => rfl
  | some colon =>
    obtain ⟨split, absent⟩ := find_single found
    simp only
    rw [if_neg]
    intro named
    exact other _ ⟨_, split, absent, named⟩

theorem headerStep_encoding {line value : Bytes} (header : ¬ bytes "HTTP/" <+: line)
    (encoding : ContentEncodingLine line value) (before : Bytes) :
    headerStep (bytes "content-encoding") before line = trimAscii value := by
  obtain ⟨field, rfl, absent, named⟩ := encoding
  have colon : find [byte ':'] (field ++ byte ':' :: value) = some field.length := by
    have here := find_here [byte ':'] value
    rw [List.singleton_append] at here
    rw [find_skip absent, here]
    simp
  rw [headerStep, if_neg (by rwa [List.isPrefixOf_iff_prefix]), colon]
  simp [named]

theorem foldl_others {lines : List Bytes} (headers : ∀ line ∈ lines, ¬ bytes "HTTP/" <+: line)
    (others : ∀ line ∈ lines, ∀ value, ¬ ContentEncodingLine line value) (value : Bytes) :
    lines.foldl (headerStep (bytes "content-encoding")) value = value := by
  induction lines generalizing value with
  | nil => rfl
  | cons line rest ih =>
    obtain ⟨header, headers⟩ := List.forall_mem_cons.mp headers
    obtain ⟨other, others⟩ := List.forall_mem_cons.mp others
    rw [List.foldl_cons, headerStep_other header other, ih headers others]

section
variable (head : ResponseHead)

theorem findHttpHeaderValue_head :
    findHttpHeaderValue (head.statusLine ++ joined head.lines) (bytes "content-encoding") =
      head.lines.foldl (headerStep (bytes "content-encoding")) [] := by
  have nonempty : head.statusLine ≠ [] := by simp [ResponseHead.statusLine]
  have lines := getLines_joined nonempty head.statusLine_line head.lines_oneLine
  have wanted : toLowerAscii (bytes "content-encoding") = bytes "content-encoding" := by decide
  rw [findHttpHeaderValue, scanHeaders_eq, lines, List.foldl_cons, wanted]
  have cleared : headerStep (bytes "content-encoding") [] head.statusLine = [] := by
    rw [headerStep, if_pos head.statusLine_http]
  rw [cleared]

theorem findHttpHeaderValue_none
    (others : ∀ line ∈ head.lines, ∀ value, ¬ ContentEncodingLine line value) :
    findHttpHeaderValue (head.statusLine ++ joined head.lines) (bytes "content-encoding") = [] := by
  rw [findHttpHeaderValue_head]
  exact foldl_others head.lines_header others []

theorem findHttpHeaderValue_single {before after : List Bytes} {line value : Bytes}
    (split : head.lines = before ++ line :: after) (encoding : ContentEncodingLine line value)
    (others : ∀ other ∈ before ++ after, ∀ value, ¬ ContentEncodingLine other value) :
    findHttpHeaderValue (head.statusLine ++ joined head.lines) (bytes "content-encoding") =
      trimAscii value := by
  have headers := head.lines_header
  rw [split] at headers
  have earlier := @foldl_others before (fun line member => headers line (by simp [member]))
    (fun line member => others line (by simp [member])) []
  have here := headerStep_encoding (headers line (by simp)) encoding []
  have later := @foldl_others after (fun line member => headers line (by simp [member]))
    (fun line member => others line (by simp [member])) (trimAscii value)
  rw [findHttpHeaderValue_head, split, List.foldl_append, earlier, List.foldl_cons, here, later]

/-- The parser finds the three parts of a response where they were written. -/
theorem parseHttpResponse_text (payload : Bytes)
    (decoders : List (Option HttpContentEncodingDecoder)) :
    parseHttpResponse (head.text payload) decoders =
      (decodeHttpResponseBody payload
        (findHttpHeaderValue (head.statusLine ++ joined head.lines) (bytes "content-encoding"))
        decoders).map fun body => { statusCode := head.statusCode, body := body } := by
  have range := head.statusCode_range
  have blank := find_blankLine head.lines_oneLine payload
  have ended : find [13, 10] (joined head.lines ++ ([13, 10, 13, 10] ++ payload)) = some 0 := by
    cases head.lines with
    | nil => exact find_here [13, 10] ([13, 10] ++ payload)
    | cons line rest => exact find_here [13, 10] _
  have headerEnd : find [13, 10, 13, 10] (head.text payload) =
      some (head.statusLine ++ joined head.lines).length := by
    rw [head.text_eq, find_skip head.statusLine_line.1, blank, Option.map_some, List.length_append,
      Nat.add_comm]
  have statusLineEnd : find [13, 10] (head.text payload) = some head.statusLine.length := by
    rw [head.text_eq, find_skip head.statusLine_line.1, ended, Option.map_some, Nat.zero_add]
  have statusLine : (head.text payload).take head.statusLine.length = head.statusLine := by
    rw [head.text_eq, List.take_left]
  have headers : (head.text payload).take (head.statusLine ++ joined head.lines).length =
      head.statusLine ++ joined head.lines := by
    rw [head.text_eq, ← List.append_assoc, List.take_left]
  have body : (head.text payload).drop ((head.statusLine ++ joined head.lines).length + 4) =
      payload := by
    rw [head.text_eq, ← List.append_assoc, ← List.drop_drop, List.drop_left]
    rfl
  have version : (bytes "HTTP/").isPrefixOf head.version = true :=
    List.isPrefixOf_iff_prefix.mpr head.version_http
  have ordered : ¬ head.statusLine.length > (head.statusLine ++ joined head.lines).length := by
    simp
  have positive : ((head.statusCode : Int) == 0) = false := by
    rw [beq_eq_false_iff_ne]
    omega
  simp only [parseHttpResponse, blankLine_eq, crlf_eq, headerEnd, statusLineEnd, if_neg ordered,
    statusLine, head.readWord_statusLine, head.readLong_statusLine, version, positive, headers, body,
    Bool.not_true, Bool.or_self, Bool.false_eq_true, if_false]

end

/-! ### The encodings -/

theorem listTokens_blank {element : Bytes} (blank : Blank element) : listTokens element = [] := by
  have padded := listTokens_pad blank .nil []
  rw [List.append_nil, List.append_nil] at padded
  rw [padded]
  decide

theorem listTokens_intercalate (elements : List Bytes) :
    listTokens ([byte ','].intercalate elements) = elements.flatMap listTokens := by
  induction elements with
  | nil => decide
  | cons element rest ih =>
    cases rest with
    | nil => simp [List.intercalate]
    | cons next tail =>
      have step := listTokens_append element ([byte ','].intercalate (next :: tail))
      rw [ih] at step
      simpa [List.intercalate] using step

/-- What the list of a header can name: a text that is not empty, holds no comma and
has no white space at its ends. -/
structure Token (name : Bytes) : Prop where
  nonempty : name ≠ []
  plain : byte ',' ∉ name
  trimmed : trimAscii name = name

theorem listTokens_spells {name element : Bytes} (token : Token name)
    (spelled : Spells name element) : (listTokens element).map toLowerAscii = [name] := by
  obtain ⟨before, word, after, leading, trailing, rfl, rfl⟩ := spelled
  rw [listTokens_pad leading trailing, ← listTokens_toLowerAscii, listTokens_single token.plain,
    token.trimmed, List.isEmpty_eq_false_iff.mpr token.nonempty, if_neg (by decide)]

/-- Of a header's list only the encodings are left that it names. -/
theorem parseContentEncodings_names {elements names : List Bytes} (listed : Names elements names)
    (tokens : ∀ name ∈ names, Token name) :
    (parseContentEncodings ([byte ','].intercalate elements)).filter (· ≠ bytes "identity") =
      names := by
  rw [parseContentEncodings_eq, listTokens_intercalate]
  have identity : Token (bytes "identity") := ⟨by decide, by decide, by decide⟩
  induction listed with
  | nil => rfl
  | blank blank rest ih => rw [List.flatMap_cons, listTokens_blank blank, List.nil_append, ih tokens]
  | identity spelled rest ih =>
    rw [List.flatMap_cons, List.map_append, listTokens_spells identity spelled, List.filter_append,
      ih tokens]
    rfl
  | encoding named spelled rest ih =>
    obtain ⟨token, tokens⟩ := List.forall_mem_cons.mp tokens
    rw [List.flatMap_cons, List.map_append, listTokens_spells token spelled, List.filter_append,
      ih tokens]
    simp [named]

theorem undoEncodings_filter (entries : List ContentEncodingDecoderEntry) (encodings : List Bytes)
    (body : Bytes) :
    undoEncodings entries encodings body =
      undoEncodings entries (encodings.filter (· ≠ bytes "identity")) body := by
  induction encodings generalizing body with
  | nil => rfl
  | cons encoding rest ih =>
    by_cases identity : encoding = bytes "identity"
    · rw [undoEncodings, if_pos identity, ih, List.filter_cons_of_neg (by simpa using identity)]
    · rw [List.filter_cons_of_pos (by simpa using identity), undoEncodings, undoEncodings,
        if_neg identity, if_neg identity]
      cases findDecoderEntry entries encoding with
      | none => rfl
      | some entry =>
        simp only
        cases decoded : entry.decoder.decode body encoding with
        | error error => simp only
        | ok text => exact ih text

/-- The encodings are undone from the last applied to the first. -/
theorem undoEncodings_encoded {entries : List ContentEncodingDecoderEntry}
    (distinct : DistinctEntries entries) {encode : Bytes → Bytes → Bytes} {names : List Bytes}
    (inverted : ∀ name ∈ names, Inverted entries encode name)
    (named : ∀ name ∈ names, name ≠ bytes "identity") (body : Bytes) :
    undoEncodings entries names.reverse (names.foldl (fun body name => encode name body) body) =
      .ok body := by
  induction names using List.reverseRecOn with
  | nil => rfl
  | append_singleton earlier name ih =>
    obtain ⟨entry, member, rfl, inverse⟩ := (inverted name (by simp)).decoder
    have continued := ih (fun name member => inverted name (by simp [member]))
      fun name member => named name (by simp [member])
    simp only [List.foldl_concat, List.reverse_concat, undoEncodings, named entry.encoding (by simp),
      if_false, findDecoderEntry_distinct distinct member, inverse]
    exact continued

theorem Inverted.token {decoders : List (Option HttpContentEncodingDecoder)}
    {entries : List ContentEncodingDecoderEntry}
    (accepted : buildDecoderEntries decoders = .ok entries) {encode : Bytes → Bytes → Bytes}
    {name : Bytes} (inverted : Inverted entries encode name) : Token name := by
  obtain ⟨distinct, built⟩ := buildDecoderEntries_ok accepted
  obtain ⟨entry, member, rfl, -⟩ := inverted.decoder
  refine ⟨distinct.named entry member, inverted.plain, ?_⟩
  have normal := advertised_normal built member
  calc trimAscii entry.encoding
      = trimAscii (normalizeResponseEncoding entry.encoding) := by rw [normal]
    _ = normalizeResponseEncoding entry.encoding := by
        rw [normalizeResponseEncoding, trimAscii_toLowerAscii, trimAscii_eq, trimAscii_eq, trim_trim]
    _ = entry.encoding := normal

theorem Names.not_identity {elements names : List Bytes} (listed : Names elements names) :
    ∀ name ∈ names, name ≠ bytes "identity" := by
  induction listed with
  | nil =>
    intro name member
    contradiction
  | blank blank rest ih => exact ih
  | identity spelled rest ih => exact ih
  | encoding named spelled rest ih => exact List.forall_mem_cons.mpr ⟨named, ih⟩

/-- A payload that was encoded as its header says is decoded to the body. -/
theorem decodeHttpResponseBody_encoded {decoders : List (Option HttpContentEncodingDecoder)}
    {entries : List ContentEncodingDecoderEntry}
    (accepted : buildDecoderEntries decoders = .ok entries) {encode : Bytes → Bytes → Bytes}
    {elements names : List Bytes} (listed : Names elements names)
    (inverted : ∀ name ∈ names, Inverted entries encode name) (body : Bytes) :
    decodeHttpResponseBody (names.foldl (fun body name => encode name body) body)
      (trimAscii ([byte ','].intercalate elements)) decoders = .ok body := by
  have tokens : ∀ name ∈ names, Token name := fun name member => (inverted name member).token accepted
  have parsed := parseContentEncodings_names listed tokens
  have trimmed : parseContentEncodings (trimAscii ([byte ','].intercalate elements)) =
      parseContentEncodings ([byte ','].intercalate elements) := by
    rw [parseContentEncodings_eq, listTokens_trimAscii, ← parseContentEncodings_eq]
  rw [decodeHttpResponseBody, trimmed]
  simp only [accepted]
  split
  · rename_i empty
    rw [List.isEmpty_iff.mp empty] at parsed
    rw [← parsed]
    rfl
  · rw [undoEncodings_filter, List.filter_reverse, parsed]
    exact undoEncodings_encoded (buildDecoderEntries_ok accepted).1 inverted listed.not_identity body

/-- Parsing a response gives back its status code and the body that was encoded, for
any head and any number of layers, with the label spelled in any letter case and
with blanks and empty elements in its list. -/
theorem parseHttpResponse_undoes_encoding (head : ResponseHead)
    (decoders : List (Option HttpContentEncodingDecoder)) (encode : Bytes → Bytes → Bytes)
    (body : Bytes) :
    (∀ before line after value elements names entries,
      head.lines = before ++ line :: after → ContentEncodingLine line value →
      (∀ other ∈ before ++ after, ∀ value, ¬ ContentEncodingLine other value) →
      value = [byte ','].intercalate elements → Names elements names →
      buildDecoderEntries decoders = .ok entries →
      (∀ name ∈ names, Inverted entries encode name) →
      parseHttpResponse (head.text (names.foldl (fun body name => encode name body) body)) decoders =
        .ok { statusCode := head.statusCode, body := body }) ∧
    ((∀ line ∈ head.lines, ∀ value, ¬ ContentEncodingLine line value) →
      parseHttpResponse (head.text body) decoders =
        .ok { statusCode := head.statusCode, body := body }) := by
  constructor
  · intro before line after value elements names entries split encoding others list listed accepted
      inverted
    have found := findHttpHeaderValue_single head split encoding others
    rw [parseHttpResponse_text, found, list,
      decodeHttpResponseBody_encoded accepted listed inverted body]
    rfl
  · intro others
    have found := findHttpHeaderValue_none head others
    have plain : decodeHttpResponseBody body [] decoders = .ok body := rfl
    rw [parseHttpResponse_text, found, plain]
    rfl

/-- A decoder of encodings that write their own name before the body. -/
def labelDecoder (names : List Bytes) : HttpContentEncodingDecoder where
  acceptedResponseEncodings := names
  decode body encoding :=
    if encoding.isPrefixOf body then .ok (body.drop encoding.length)
    else .error (.runtimeError (bytes "invalid label"))

def okHead (lines : List Bytes)
    (plain : ∀ line ∈ lines, line ≠ [] ∧ OneLine line ∧ ¬ bytes "HTTP/" <+: line) :
    ResponseHead where
  version := bytes "HTTP/1.1"
  statusCode := 200
  reason := bytes "OK"
  lines := lines
  version_http := by decide
  version_word := by
    have word : (bytes "HTTP/1.1").all (fun c => isSpace c == false) = true := by decide
    intro c member
    exact beq_iff_eq.mp (List.all_eq_true.mp word c member)
  statusCode_range := by decide
  reason_line := ⟨by decide, by decide⟩
  lines_plain := plain

/-- Two labels, the list of them in mixed case with a blank element and
`identity` in it, around a body that holds a blank line; and that body as it is. -/
theorem parseHttpResponse_labels :
    let listed := okHead [bytes "CONTENT-encoding: Br,, Identity ,GZIP"] (by
      intro line member
      obtain rfl := List.mem_singleton.mp member
      exact ⟨by decide, ⟨by decide, by decide⟩, by decide⟩)
    let plain := okHead [] (by
      intro line member
      contradiction)
    let decoders := [some (labelDecoder [bytes "br", bytes "GZip"])]
    let body := bytes "a\r\n\r\nb"
    parseHttpResponse (listed.text (bytes "gzip" ++ (bytes "br" ++ body))) decoders =
        .ok { statusCode := 200, body := body } ∧
      parseHttpResponse (plain.text body) decoders = .ok { statusCode := 200, body := body } := by
  intro listed plain decoders body
  have labelled : ∀ body name : Bytes,
      (labelDecoder [bytes "br", bytes "GZip"]).decode (name ++ body) name = .ok body := by
    intro body name
    simp [labelDecoder]
  constructor
  · apply (parseHttpResponse_undoes_encoding listed decoders (fun name body => name ++ body) body).1
      [] (bytes "CONTENT-encoding: Br,, Identity ,GZIP") [] (bytes " Br,, Identity ,GZIP")
      [bytes " Br", [], bytes " Identity ", bytes "GZIP"] [bytes "br", bytes "gzip"] _ rfl
    · exact ⟨bytes "CONTENT-encoding", by decide, by decide, by decide⟩
    · intro other member
      contradiction
    · decide
    · apply Names.encoding (by decide) ⟨bytes " ", bytes "Br", [], .space, .nil, by decide, by decide⟩
      apply Names.blank .nil
      apply Names.identity
        ⟨bytes " ", bytes "Identity", bytes " ", .space, .space, by decide, by decide⟩
      exact .encoding (by decide) ⟨[], bytes "GZIP", [], .nil, .nil, by decide, by decide⟩ .nil
    · rfl
    · intro name member
      rcases List.mem_cons.mp member with rfl | member
      · exact ⟨by decide, _, List.mem_cons_self, by decide, fun body => labelled body _⟩
      · obtain rfl := List.mem_singleton.mp member
        exact ⟨by decide, _, List.mem_cons_of_mem _ List.mem_cons_self, by decide,
          fun body => labelled body _⟩
  · apply (parseHttpResponse_undoes_encoding plain decoders (fun name body => name ++ body) body).2
    intro line member
    contradiction

end AlternatorClient
