import AlternatorClient.HttpCompression.Tokens
import AlternatorClient.Config
import Mathlib.Data.List.Count

/-! What a client advertises and what it can decode. The names of the decoders
are joined with commas; a name that holds commas itself is read back as several
tokens, none of which its decoder is found by. -/
namespace AlternatorClient
open Foundation

def advertisedEntries (decoders : List (Option HttpContentEncodingDecoder)) :
    List ContentEncodingDecoderEntry :=
  decoders.flatMap fun decoder => decoder.toList.flatMap fun decoder =>
    decoder.acceptedResponseEncodings.map fun name => ⟨normalizeResponseEncoding name, decoder⟩

/-- What `BuildDecoderEntries` has checked of the entries it returns: no encoding is
empty, and none has two decoders. -/
structure DistinctEntries (entries : List ContentEncodingDecoderEntry) : Prop where
  nodup : (entries.map ContentEncodingDecoderEntry.encoding).Nodup
  named : ∀ entry ∈ entries, entry.encoding ≠ []

theorem advertise_ok {decoder : HttpContentEncodingDecoder} {names : List Bytes}
    {before entries : List ContentEncodingDecoderEntry} (distinct : DistinctEntries before)
    (accepted : advertise decoder names before = .ok entries) :
    DistinctEntries entries ∧
      entries = before ++ names.map fun name => ⟨normalizeResponseEncoding name, decoder⟩ := by
  induction names generalizing before with
  | nil =>
    cases accepted
    exact ⟨distinct, by simp⟩
  | cons name rest ih =>
    simp only [advertise] at accepted
    split at accepted
    · contradiction
    · rename_i named
      split at accepted
      · contradiction
      · rename_i fresh
        have extended : DistinctEntries (before ++ [⟨normalizeResponseEncoding name, decoder⟩]) := by
          constructor
          · rw [List.map_append, List.nodup_append]
            refine ⟨distinct.nodup, List.nodup_singleton _, ?_⟩
            rintro encoding member other single rfl
            obtain ⟨entry, within, rfl⟩ := List.mem_map.mp member
            apply fresh
            simp only [List.any_eq_true, decide_eq_true_eq]
            exact ⟨entry, within, by simpa using single⟩
          · intro entry member
            rcases List.mem_append.mp member with earlier | last
            · exact distinct.named entry earlier
            · obtain rfl := List.mem_singleton.mp last
              simpa using named
        obtain ⟨distinct, joined⟩ := ih extended accepted
        exact ⟨distinct, by simp [joined]⟩

theorem buildDecoderEntriesFrom_ok {decoders : List (Option HttpContentEncodingDecoder)}
    {before entries : List ContentEncodingDecoderEntry} (distinct : DistinctEntries before)
    (accepted : buildDecoderEntriesFrom decoders before = .ok entries) :
    DistinctEntries entries ∧ entries = before ++ advertisedEntries decoders := by
  induction decoders generalizing before with
  | nil =>
    cases accepted
    exact ⟨distinct, by simp [advertisedEntries]⟩
  | cons first rest ih =>
    cases first with
    | none => contradiction
    | some decoder =>
      simp only [buildDecoderEntriesFrom] at accepted
      split at accepted
      · contradiction
      · split at accepted
        · contradiction
        · rename_i extended advertised
          obtain ⟨distinct, joined⟩ := advertise_ok distinct advertised
          obtain ⟨distinct, joined'⟩ := ih distinct accepted
          refine ⟨distinct, ?_⟩
          simp [joined', joined, advertisedEntries]

theorem buildDecoderEntries_ok {decoders : List (Option HttpContentEncodingDecoder)}
    {entries : List ContentEncodingDecoderEntry}
    (accepted : buildDecoderEntries decoders = .ok entries) :
    DistinctEntries entries ∧ entries = advertisedEntries decoders := by
  have none : DistinctEntries [] := ⟨by simp, by simp⟩
  exact buildDecoderEntriesFrom_ok none accepted

theorem mem_advertisedEntries {decoders : List (Option HttpContentEncodingDecoder)}
    {entry : ContentEncodingDecoderEntry} :
    entry ∈ advertisedEntries decoders ↔ ∃ decoder, some decoder ∈ decoders ∧
      ∃ name ∈ decoder.acceptedResponseEncodings,
        entry = ⟨normalizeResponseEncoding name, decoder⟩ := by
  simp only [advertisedEntries, List.mem_flatMap, Option.mem_toList, List.mem_map]
  constructor
  · rintro ⟨_, listed, decoder, rfl, name, member, rfl⟩
    exact ⟨decoder, listed, name, member, rfl⟩
  · rintro ⟨decoder, listed, name, member, rfl⟩
    exact ⟨_, listed, decoder, rfl, name, member, rfl⟩

/-- A server reads the tokens of the names, one name after the other. -/
theorem listTokens_acceptEncodingValue (entries : List ContentEncodingDecoderEntry) (value : Bytes) :
    listTokens (entries.foldl (fun value entry =>
      (if value.isEmpty then value else value ++ bytes ", ") ++ entry.encoding) value) =
      listTokens value ++ entries.flatMap fun entry => listTokens entry.encoding := by
  have separator : bytes ", " = [byte ',', byte ' '] := by decide
  induction entries generalizing value with
  | nil => simp
  | cons entry rest ih =>
    have step : listTokens ((if value.isEmpty then value else value ++ bytes ", ") ++
        entry.encoding) = listTokens value ++ listTokens entry.encoding := by
      cases value with
      | nil => simp [listTokens, splitCommas, trimAscii]
      | cons c tail =>
        have spaced := listTokens_pad .space .nil entry.encoding
        have joined := listTokens_append (c :: tail) ([byte ' '] ++ entry.encoding ++ [])
        rw [spaced] at joined
        simpa [separator] using joined
    rw [List.foldl_cons, ih, step, List.flatMap_cons, List.append_assoc]

/-- A token of a value that is listed once, and whose responses go to the
decoder that advertised it. -/
structure Decoded (decoders : List (Option HttpContentEncodingDecoder))
    (entries : List ContentEncodingDecoderEntry) (value token : Bytes) : Prop where
  unique : (listTokens value).count token = 1
  passed : ∃ entry, findDecoderEntry entries token = some entry ∧
    token ∈ listTokens entry.encoding ∧
    ∀ body, decodeHttpResponseBody body token decoders = entry.decoder.decode body token

/-- Every token of the Accept-Encoding value but `identity` can be decoded. -/
def DecodesAdvertised (decoders : List (Option HttpContentEncodingDecoder)) : Prop :=
  ∀ entries value, buildDecoderEntries decoders = .ok entries →
    buildAcceptEncodingValue decoders = .ok value →
    ∀ token ∈ listTokens value, token ≠ bytes "identity" → Decoded decoders entries value token

/-- A name that holds a comma lists nothing but blank and `identity` elements. -/
def CommasListNothing (decoders : List (Option HttpContentEncodingDecoder)) : Prop :=
  ∀ decoder, some decoder ∈ decoders → ∀ name ∈ decoder.acceptedResponseEncodings,
    byte ',' ∈ name → ∀ token ∈ parseContentEncodings name, token = bytes "identity"

theorem comma_mem_normalize (name : Bytes) :
    byte ',' ∈ normalizeResponseEncoding name ↔ byte ',' ∈ name := by
  have trimmed : byte ',' ∈ trimAscii name ↔ byte ',' ∈ name := by
    obtain ⟨before, after, leading, trailing, split⟩ := exists_trim isSpace name
    have outside : byte ',' ∉ before ∧ byte ',' ∉ after :=
      ⟨Blank.comma_notMem leading, Blank.comma_notMem trailing⟩
    rw [split, ← trimAscii_eq]
    simp only [List.mem_append, outside, false_or, or_false]
    rw [trimAscii_eq, trim_pad isSpace leading trailing, trimAscii_eq, trim_trim]
  rw [← trimmed, normalizeResponseEncoding, toLowerAscii, List.mem_map]
  constructor
  · rintro ⟨c, member, comma⟩
    rwa [(toLower_eq_comma c).mp comma] at member
  · intro member
    exact ⟨byte ',', member, (toLower_eq_comma _).mpr rfl⟩

theorem normalize_normalize (name : Bytes) :
    normalizeResponseEncoding (normalizeResponseEncoding name) = normalizeResponseEncoding name := by
  simp only [normalizeResponseEncoding, trimAscii_toLowerAscii, toLowerAscii_toLowerAscii]
  rw [trimAscii_eq, trimAscii_eq, trim_trim]

theorem parseContentEncodings_plain {name : Bytes} (normal : normalizeResponseEncoding name = name)
    (named : name ≠ []) (plain : byte ',' ∉ name) : parseContentEncodings name = [name] := by
  rw [parseContentEncodings, splitCommas_single plain]
  simp [normal, named]

section
variable {decoders : List (Option HttpContentEncodingDecoder)}
  {entries : List ContentEncodingDecoderEntry} {token : Bytes}

/-- The condition on the decoders, read off the entries built from them. An
advertised encoding with a comma names several in a response, all of which have to
be `identity`. -/
theorem commasListNothing_iff (built : entries = advertisedEntries decoders) :
    CommasListNothing decoders ↔ ∀ entry ∈ entries, byte ',' ∈ entry.encoding →
      ∀ token ∈ listTokens entry.encoding, token = bytes "identity" := by
  subst built
  constructor
  · intro nothing entry member comma
    obtain ⟨decoder, listed, name, advertised, rfl⟩ := mem_advertisedEntries.mp member
    rw [listTokens_normalize]
    exact nothing decoder listed name advertised ((comma_mem_normalize name).mp comma)
  · intro nothing decoder listed name advertised comma
    have within := nothing ⟨normalizeResponseEncoding name, decoder⟩
      (mem_advertisedEntries.mpr ⟨decoder, listed, name, advertised, rfl⟩)
      ((comma_mem_normalize name).mpr comma)
    rwa [listTokens_normalize] at within

theorem advertised_normal (built : entries = advertisedEntries decoders)
    {entry : ContentEncodingDecoderEntry} (member : entry ∈ entries) :
    normalizeResponseEncoding entry.encoding = entry.encoding := by
  subst built
  obtain ⟨decoder, listed, name, advertised, rfl⟩ := mem_advertisedEntries.mp member
  exact normalize_normalize name

theorem listTokens_plain {entry : ContentEncodingDecoderEntry}
    (normal : normalizeResponseEncoding entry.encoding = entry.encoding)
    (named : entry.encoding ≠ []) (plain : byte ',' ∉ entry.encoding) :
    listTokens entry.encoding = [entry.encoding] := by
  rw [← parseContentEncodings_plain normal named plain, ← listTokens_normalize, normal]

/-- A response with one encoding goes to the decoder it is found by. -/
theorem decode_single (accepted : buildDecoderEntries decoders = .ok entries)
    {entry : ContentEncodingDecoderEntry} (parsed : parseContentEncodings token = [token])
    (named : token ≠ bytes "identity") (found : findDecoderEntry entries token = some entry)
    (body : Bytes) :
    decodeHttpResponseBody body token decoders = entry.decoder.decode body token := by
  simp only [decodeHttpResponseBody, parsed, accepted, List.isEmpty_cons, Bool.false_eq_true,
    if_false, List.reverse_cons, List.reverse_nil, List.nil_append, undoEncodings, named, found]
  cases entry.decoder.decode body token with
  | error error => rfl
  | ok body => rfl

theorem findDecoderEntry_distinct (distinct : DistinctEntries entries)
    {entry : ContentEncodingDecoderEntry} (member : entry ∈ entries) :
    findDecoderEntry entries entry.encoding = some entry := by
  obtain ⟨before, after, rfl⟩ := List.append_of_mem member
  have nodup := distinct.nodup
  rw [List.map_append, List.nodup_append] at nodup
  rw [findDecoderEntry, List.find?_eq_some_iff_append]
  refine ⟨by simp, before, after, rfl, ?_⟩
  intro earlier within
  have apart := nodup.2.2 earlier.encoding (List.mem_map_of_mem within) entry.encoding (by simp)
  simpa using apart

theorem one_lt_count {first second : ContentEncodingDecoderEntry} (member : first ∈ entries)
    (other : second ∈ entries) (different : second ≠ first)
    (listed : token ∈ listTokens first.encoding) (again : token ∈ listTokens second.encoding) :
    1 < (entries.flatMap fun entry => listTokens entry.encoding).count token := by
  obtain ⟨before, after, rfl⟩ := List.append_of_mem member
  have here := List.count_pos_iff.mpr listed
  have elsewhere : token ∈ (before ++ after).flatMap fun entry => listTokens entry.encoding := by
    refine List.mem_flatMap.mpr ⟨second, ?_, again⟩
    simpa [different] using other
  have there := List.count_pos_iff.mpr elsewhere
  simp only [List.flatMap_append, List.flatMap_cons, List.count_append] at there ⊢
  omega

/-- A token that one plain name alone lists is listed once. -/
theorem count_plain (distinct : DistinctEntries entries)
    (normal : ∀ entry ∈ entries, normalizeResponseEncoding entry.encoding = entry.encoding)
    (nothing : ∀ entry ∈ entries, byte ',' ∈ entry.encoding →
      ∀ token ∈ listTokens entry.encoding, token = bytes "identity")
    {entry : ContentEncodingDecoderEntry} (member : entry ∈ entries)
    (plain : byte ',' ∉ entry.encoding) (named : entry.encoding ≠ bytes "identity") :
    (entries.flatMap fun entry => listTokens entry.encoding).count entry.encoding = 1 := by
  have here := listTokens_plain (normal entry member) (distinct.named entry member) plain
  obtain ⟨before, after, rfl⟩ := List.append_of_mem member
  have nodup := distinct.nodup
  rw [List.map_append, List.map_cons, List.nodup_append, List.nodup_cons] at nodup
  -- No other entry lists the name: plain ones have another, the rest only `identity`.
  have elsewhere : ∀ others : List ContentEncodingDecoderEntry,
      (∀ other ∈ others, other ∈ before ++ entry :: after ∧ other.encoding ≠ entry.encoding) →
      (others.flatMap fun entry => listTokens entry.encoding).count entry.encoding = 0 := by
    intro others apart
    rw [List.count_eq_zero, List.mem_flatMap]
    rintro ⟨other, within, listed⟩
    obtain ⟨present, different⟩ := apart other within
    by_cases comma : byte ',' ∈ other.encoding
    · exact named (nothing other present comma _ listed)
    · rw [listTokens_plain (normal other present) (distinct.named other present) comma,
        List.mem_singleton] at listed
      exact different listed.symm
  have first := elsewhere before fun other within =>
    ⟨by simp [within], nodup.2.2 _ (List.mem_map_of_mem within) _ (by simp)⟩
  have last := elsewhere after fun other within =>
    ⟨by simp [within], fun same => nodup.2.1.1 (same ▸ List.mem_map_of_mem within)⟩
  simp [List.flatMap_append, List.count_append, here, first, last]

theorem decoded_of_commasListNothing (accepted : buildDecoderEntries decoders = .ok entries)
    (nothing : CommasListNothing decoders) {value : Bytes}
    (tokens : listTokens value = entries.flatMap fun entry => listTokens entry.encoding)
    (listed : token ∈ listTokens value) (named : token ≠ bytes "identity") :
    Decoded decoders entries value token := by
  obtain ⟨distinct, built⟩ := buildDecoderEntries_ok accepted
  have normal := fun entry member => @advertised_normal decoders entries built entry member
  have nothing := (commasListNothing_iff built).mp nothing
  rw [tokens, List.mem_flatMap] at listed
  obtain ⟨entry, member, listed⟩ := listed
  have plain : byte ',' ∉ entry.encoding := fun comma => named (nothing entry member comma _ listed)
  have single := listTokens_plain (normal entry member) (distinct.named entry member) plain
  obtain rfl : token = entry.encoding := by simpa [single] using listed
  have found := findDecoderEntry_distinct distinct member
  have parsed := parseContentEncodings_plain (normal entry member) (distinct.named entry member) plain
  refine ⟨?_, entry, found, listed, decode_single accepted parsed named found⟩
  rw [tokens]
  exact count_plain distinct normal nothing member plain named

theorem commasListNothing_of_decoded (accepted : buildDecoderEntries decoders = .ok entries)
    {value : Bytes}
    (tokens : listTokens value = entries.flatMap fun entry => listTokens entry.encoding)
    (decoded : ∀ token ∈ listTokens value, token ≠ bytes "identity" →
      Decoded decoders entries value token) : CommasListNothing decoders := by
  obtain ⟨distinct, built⟩ := buildDecoderEntries_ok accepted
  rw [commasListNothing_iff built]
  intro entry member comma token listed
  by_contra named
  have within : token ∈ listTokens value := by
    rw [tokens]
    exact List.mem_flatMap.mpr ⟨entry, member, listed⟩
  obtain ⟨unique, finder, found, again, -⟩ := decoded token within named
  have other := List.mem_of_find?_eq_some found
  have name : finder.encoding = token := by simpa using List.find?_some found
  -- The decoder it is found by has a plain name, so it is another one.
  have different : finder ≠ entry := by
    rintro rfl
    exact (mem_listTokens listed).2.1 (name ▸ comma)
  have twice := one_lt_count member other different listed again
  rw [← tokens] at twice
  omega

end

theorem validateConfig_decoders {config : Config} (valid : validateConfig config = .ok ()) :
    ∃ entries, buildDecoderEntries config.contentEncodingDecoders = .ok entries := by
  cases built : buildDecoderEntries config.contentEncodingDecoders with
  | ok entries => exact ⟨entries, rfl⟩
  | error error =>
    have refused : buildAcceptEncodingValue config.contentEncodingDecoders = .error error := by
      rw [buildAcceptEncodingValue, built]
      rfl
    simp only [validateConfig, refused] at valid
    repeat (split at valid; contradiction)
    contradiction

/-- For decoders that `ValidateConfig` accepts everything advertised can be
decoded exactly if no name with a comma in it lists an encoding. -/
theorem decodesAdvertised_iff {config : Config} (valid : validateConfig config = .ok ()) :
    DecodesAdvertised config.contentEncodingDecoders ↔
      CommasListNothing config.contentEncodingDecoders := by
  obtain ⟨entries, accepted⟩ := validateConfig_decoders valid
  have joined : buildAcceptEncodingValue config.contentEncodingDecoders =
      .ok (entries.foldl (fun value entry =>
        (if value.isEmpty then value else value ++ bytes ", ") ++ entry.encoding) []) := by
    rw [buildAcceptEncodingValue, accepted]
    rfl
  have tokens := listTokens_acceptEncodingValue entries []
  rw [show listTokens [] = [] by decide, List.nil_append] at tokens
  constructor
  · intro decodes
    exact commasListNothing_of_decoded accepted tokens (decodes _ _ accepted joined)
  · intro nothing entries' value accepted' joined' token listed named
    obtain rfl := Except.ok.inj (accepted.symm.trans accepted')
    obtain rfl := Except.ok.inj (joined.symm.trans joined')
    exact decoded_of_commasListNothing accepted nothing tokens listed named

/-- A decoder of the given names that returns every body as it is. -/
def echoDecoder (names : List Bytes) : HttpContentEncodingDecoder := ⟨names, fun body _ => .ok body⟩

/-- A decoder that gives its name in mixed case behind a blank: the name is
advertised trimmed and in small letters, and a response that uses it finds the
decoder. -/
theorem decodesAdvertised_gzip :
    let config : Config := { contentEncodingDecoders := [some (echoDecoder [bytes " GZip"])] }
    validateConfig config = .ok () ∧ DecodesAdvertised config.contentEncodingDecoders := by
  refine ⟨by rfl, (decodesAdvertised_iff (by rfl)).mpr ?_⟩
  rintro decoder listed name advertised comma
  obtain rfl := Option.some.inj (List.mem_singleton.mp listed)
  obtain rfl := List.mem_singleton.mp advertised
  exact absurd comma (by decide)

/-- One decoder for two encodings under one name: both are advertised and
neither is known when it arrives. -/
theorem joined_names_undecodable :
    let config : Config := { contentEncodingDecoders := [some (echoDecoder [bytes "gzip, br"])] }
    validateConfig config = .ok () ∧
      (buildAcceptEncodingValue config.contentEncodingDecoders).toOption = some (bytes "gzip, br") ∧
      decodeHttpResponseBody [] (bytes "gzip") config.contentEncodingDecoders =
        .error (.runtimeError (bytes "unexpected HTTP content encoding: gzip")) ∧
      ¬ DecodesAdvertised config.contentEncodingDecoders := by
  refine ⟨by rfl, by decide +kernel, by rfl, ?_⟩
  intro decodes
  obtain ⟨-, entry, found, -⟩ := decodes _ _ rfl rfl (bytes "gzip") (by decide +kernel) (by decide)
  have missing : (findDecoderEntry [⟨bytes "gzip, br", echoDecoder [bytes "gzip, br"]⟩]
      (bytes "gzip")).isNone := by decide +kernel
  rw [Option.isNone_iff_eq_none] at missing
  exact absurd (found.symm.trans missing) (by simp)

end AlternatorClient
