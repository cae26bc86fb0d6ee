import AlternatorClient.Foundation.Streaming
import AlternatorClient.HttpCompression

/-! `DeflateBody` and `InflateBody`: the loops that carry a body through zlib in
buffers of a fixed size. The library's calls are parameters. -/
namespace AlternatorClient
open Foundation

/-- The calls of zlib, over the states of its two kinds of stream. -/
structure Zlib (σ τ : Type) where
  deflateInit2 : Int → Option σ
  deflate : σ → Bytes → Nat → Flush → Called σ UInt8
  inflateInit2 : Int → Option τ
  inflate : τ → Bytes → Nat → Flush → Called τ UInt8

/-- `MAX_WBITS`. -/
def maxWbits : Int := 15

/-- The window bits that the code asks zlib for. They choose the framing: gzip, that of
zlib, or none. -/
def framings : List Int := [maxWbits + 16, maxWbits, -maxWbits]

def zlibBuffer : Nat := 8192

/-- `std::numeric_limits<uInt>::max()`. -/
def uIntMax : Nat := 4294967295

def checkedZlibSize (size : Nat) : Except Error Nat :=
  if size > uIntMax then .error (.runtimeError (bytes "HTTP content is too large for zlib"))
  else .ok size

/-- How `DeflateBody` stands after its inner loop: the stream has ended, or there is
input left to feed. -/
inductive Deflating (σ : Type) where
  | ended (output : Bytes)
  | going (stream : σ) (output : Bytes)

section
variable {σ τ : Type} (zlib : Zlib σ τ)

/-- The inner loop of `DeflateBody`; `none` when the fuel runs out. -/
def deflateInput (flush : Flush) : Nat → σ → Bytes → Bytes → Option (Except Error (Deflating σ))
  | 0, _, _, _ => none
  | fuel + 1, stream, availIn, output =>
    let called := zlib.deflate stream availIn zlibBuffer flush
    let output := output ++ called.produced
    match called.code with
    | .streamEnd => some (.ok (.ended output))
    | .failed => some (.error (.runtimeError (bytes "failed to deflate HTTP request")))
    | .ok =>
      if called.rest ≠ [] ∨ called.produced.length = zlibBuffer then
        deflateInput flush fuel called.state called.rest output
      else some (.ok (.going called.state output))

/-- The outer loop, with the number of full buffers that are still read before the end
of the input is met. -/
def deflateBuffers (fuel : Nat) : Nat → σ → Bytes → Bytes → Option (Except Error Bytes)
  | 0, stream, input, output =>
    (deflateInput zlib .finish fuel stream input output).map fun
      | .error error => .error error
      | .ok (.ended output) => .ok output
      | .ok (.going _ _) =>
        .error (.runtimeError (bytes "failed to finish deflating HTTP request"))
  | buffers + 1, stream, input, output =>
    match deflateInput zlib .noFlush fuel stream (input.take zlibBuffer) output with
    | none => none
    | some (.error error) => some (.error error)
    | some (.ok (.ended output)) => some (.ok output)
    | some (.ok (.going stream output)) =>
      deflateBuffers fuel buffers stream (input.drop zlibBuffer) output

def deflateBody (fuel : Nat) (input : Bytes) (windowBits : Int) : Option (Except Error Bytes) :=
  match zlib.deflateInit2 windowBits with
  | none => some (.error (.runtimeError (bytes "deflateInit2 failed")))
  | some stream => deflateBuffers zlib fuel (input.length / zlibBuffer) stream input []

/-- The loop of `InflateBody`; `none` when the fuel runs out. -/
def inflateInput : Nat → τ → Bytes → Bytes → Option (Except Error Bytes)
  | 0, _, _, _ => none
  | fuel + 1, stream, availIn, output =>
    let called := zlib.inflate stream availIn zlibBuffer .noFlush
    let output := output ++ called.produced
    match called.code with
    | .streamEnd => some (.ok output)
    | .failed => some (.error (.runtimeError (bytes "failed to inflate compressed HTTP response")))
    | .ok =>
      if called.rest = [] ∧ called.produced = [] then
        some (.error (.runtimeError (bytes "truncated compressed HTTP response")))
      else inflateInput fuel called.state called.rest output

def inflateBody (fuel : Nat) (body : Bytes) (windowBits : Int) : Option (Except Error Bytes) :=
  match zlib.inflateInit2 windowBits with
  | none => some (.error (.runtimeError (bytes "inflateInit2 failed")))
  | some stream =>
    match checkedZlibSize body.length with
    | .error error => some (.error error)
    | .ok _ => inflateInput zlib fuel stream body []

/-- `InflateDeflateBody`: a body without the zlib header is a raw stream. -/
def inflateDeflateBody (fuel : Nat) (body : Bytes) : Option (Except Error Bytes) :=
  match inflateBody zlib fuel body maxWbits with
  | some (.error (.runtimeError _)) => inflateBody zlib fuel body (-maxWbits)
  | result => result

/-- `GzipRequestCompressor::Compress`: whether the body was compressed, and to what. -/
def gzipCompress (minSizeBytes : UInt64) (fuel : Nat) (input : Bytes) (inputSize : Nat) :
    Option (Except Error (Option Bytes)) :=
  if inputSize < minSizeBytes.toNat then some (.ok none)
  else (deflateBody zlib fuel input (maxWbits + 16)).map fun deflated => deflated.map some

/-- `ZlibContentEncodingDecoder::Decode`. -/
def zlibDecode (fuel : Nat) (body contentEncoding : Bytes) : Option (Except Error Bytes) :=
  let normalized := normalizeResponseEncoding contentEncoding
  if normalized = bytes "gzip" then inflateBody zlib fuel body (maxWbits + 16)
  else if normalized = bytes "deflate" then inflateDeflateBody zlib fuel body
  else
    some (.error (.runtimeError (bytes "unsupported HTTP content encoding: " ++ normalized)))

end

/-! ### What zlib documents -/

/-- For the framings that the code uses, a stream can be had of either kind, and it
encodes or decodes the format of that framing. Nothing is asked of other window bits,
most of which zlib refuses. -/
structure Zlib.Documented {σ τ : Type} (zlib : Zlib σ τ) (format : Int → Bytes → Option Bytes)
    (bound : Bytes → Nat) : Prop where
  deflates : ∀ windowBits ∈ framings, ∃ stream, zlib.deflateInit2 windowBits = some stream ∧
    Encodes zlib.deflate stream (format windowBits) bound
  inflates : ∀ windowBits ∈ framings, ∃ stream, zlib.inflateInit2 windowBits = some stream ∧
    Decodes zlib.inflate stream (format windowBits)

section
variable {σ τ : Type} {zlib : Zlib σ τ} {format : Int → Bytes → Option Bytes} {bound : Bytes → Nat}

/-- The inner loop uses up its input; at the end of a body it ends the stream. -/
theorem deflateInput_takes {start : σ} {decode : Bytes → Option Bytes}
    (encodes : Encodes zlib.deflate start decode bound) (whole : Bytes) (flush : Flush)
    (fuel : Nat) {taken given input : Bytes} {full : Bool} {finishing : Option Bytes} {state : σ}
    (fed : Fed zlib.deflate start taken given full finishing state)
    (allowed : Allowed finishing input flush) (within : taken ++ input <+: whole)
    (some : input ≠ [] ∨ flush = .finish ∨ full = true)
    (enough : bound whole < given.length + zlibBuffer * fuel) :
    (flush = .noFlush ∧ ∃ given' full' state',
      deflateInput zlib flush fuel state input given = .some (.ok (.going state' given')) ∧
        Fed zlib.deflate start (taken ++ input) given' full' none state' ∧
        given.length ≤ given'.length) ∨
    flush = .finish ∧ ∃ output,
      deflateInput zlib flush fuel state input given = .some (.ok (.ended output)) ∧
        decode output = .some (taken ++ input) := by
  induction fuel generalizing taken given input full finishing state with
  | zero =>
    have limit := encodes.bounded whole fed ((List.prefix_append _ _).trans within)
    omega
  | succ fuel ih =>
    have room : 0 < zlibBuffer := by decide
    obtain ⟨part, split⟩ := encodes.takes state input zlibBuffer flush
    rcases encodes.goes input zlibBuffer flush fed allowed room some with ok | ⟨finish, ended⟩
    · have next := Fed.call fed allowed split.symm ok
      have whole' := congrArg (taken ++ ·) split
      simp only [← List.append_assoc] at whole'
      by_cases again : (zlib.deflate state input zlibBuffer flush).rest ≠ [] ∨
          (zlib.deflate state input zlibBuffer flush).produced.length = zlibBuffer
      · have filled : (zlib.deflate state input zlibBuffer flush).produced.length = zlibBuffer := by
          rcases again with more | filled
          · exact encodes.fills input zlibBuffer flush fed allowed ok (.inr more)
          · exact filled
        simp only [deflateInput, ok, if_pos again]
        rw [← whole'] at within ⊢
        have same : Allowed (flush.finishing (zlib.deflate state input zlibBuffer flush).rest)
            (zlib.deflate state input zlibBuffer flush).rest flush := by
          intro rest left
          cases flush with
          | noFlush => contradiction
          | finish => exact ⟨rfl, Option.some.inj left⟩
        have more := ih next same within (.inr (.inr (decide_eq_true filled)))
          (by rw [List.length_append, filled]; rw [Nat.mul_succ] at enough; omega)
        rcases more with ⟨noFlush, given', full', state', came, fed', longer⟩ | finished
        · refine .inl ⟨noFlush, given', full', state', came, fed', ?_⟩
          rw [List.length_append] at longer
          omega
        · exact .inr finished
      · simp only [deflateInput, ok, if_neg again]
        obtain ⟨drained, short⟩ := not_or.mp again
        cases flush with
        | finish => exact absurd (encodes.fills input zlibBuffer .finish fed allowed ok (.inl rfl)) short
        | noFlush =>
          rw [not_not] at drained
          rw [drained, List.append_nil] at split
          rw [split] at next
          exact .inl ⟨rfl, _, _, _, rfl, next, by rw [List.length_append]; omega⟩
    · refine .inr ⟨finish, _, ?_, encodes.ends input zlibBuffer flush fed allowed ended⟩
      simp only [deflateInput, ended]

/-- The outer loop carries all of the input into one stream. -/
theorem deflateBuffers_encodes {start : σ} {decode : Bytes → Option Bytes}
    (encodes : Encodes zlib.deflate start decode bound) (whole : Bytes) {fuel buffers : Nat}
    {taken given input : Bytes} {full : Bool} {state : σ}
    (fed : Fed zlib.deflate start taken given full none state) (split : taken ++ input = whole)
    (enough : bound whole < zlibBuffer * fuel) (size : zlibBuffer * buffers ≤ input.length) :
    ∃ output, deflateBuffers zlib fuel buffers state input given = some (.ok output) ∧
      decode output = some whole := by
  induction buffers generalizing taken given input full state with
  | zero =>
    have within : taken ++ input <+: whole := split ▸ List.prefix_refl (taken ++ input)
    rcases deflateInput_takes encodes whole .finish fuel fed (fun _ none => nomatch none) within
      (.inr (.inl rfl)) (by omega) with ⟨finish, _⟩ | ⟨_, output, came, decodes⟩
    · contradiction
    · refine ⟨output, ?_, split ▸ decodes⟩
      rw [deflateBuffers, came]
      rfl
  | succ buffers ih =>
    have cut := List.take_append_drop zlibBuffer input
    have pieces : taken ++ input.take zlibBuffer ++ input.drop zlibBuffer = whole := by
      rw [List.append_assoc, cut, split]
    have within : taken ++ input.take zlibBuffer <+: whole := pieces ▸ List.prefix_append _ _
    have nonempty : input.take zlibBuffer ≠ [] := by
      rw [← List.length_pos_iff_ne_nil, List.length_take]
      have room : 0 < zlibBuffer := by decide
      rw [Nat.mul_succ] at size
      omega
    rcases deflateInput_takes encodes whole .noFlush fuel fed (fun _ none => nomatch none) within
      (.inl nonempty) (by omega) with ⟨_, given', full', state', came, fed', _⟩ | ⟨finish, _⟩
    · rw [deflateBuffers, came]
      apply ih fed' pieces
      rw [List.length_drop]
      rw [Nat.mul_succ] at size
      omega
    · contradiction

/-- What is deflated decodes to the body, in every framing. -/
theorem deflateBody_encodes (documented : zlib.Documented format bound) {fuel : Nat} {body : Bytes}
    (enough : bound body < zlibBuffer * fuel) {windowBits : Int} (framed : windowBits ∈ framings) :
    ∃ output, deflateBody zlib fuel body windowBits = some (.ok output) ∧
      format windowBits output = some body := by
  obtain ⟨start, inited, encodes⟩ := documented.deflates windowBits framed
  rw [deflateBody, inited]
  exact deflateBuffers_encodes encodes body .start rfl enough (Nat.mul_div_le _ _)

theorem inflateInput_decodes {start : τ} {decode : Bytes → Option Bytes}
    (decodes : Decodes zlib.inflate start decode) {text body : Bytes}
    (encoded : decode text = some body) {fuel : Nat} {given rest : Bytes} {state : τ}
    (drawn : Drawn zlib.inflate start text given rest state) (within : given <+: body)
    (enough : body.length < given.length + zlibBuffer * fuel) :
    inflateInput zlib fuel state rest given = some (.ok body) := by
  induction fuel generalizing given rest state with
  | zero =>
    have limit := within.length_le
    omega
  | succ fuel ih =>
    have room : 0 < zlibBuffer := by decide
    rcases decodes.goes zlibBuffer body drawn room encoded with ⟨ok, filled, further⟩ | ⟨ended, all⟩
    · have some : (zlib.inflate state rest zlibBuffer .noFlush).produced ≠ [] := by
        rw [← List.length_pos_iff_ne_nil, filled]
        exact room
      simp only [inflateInput, ok, some, and_false, if_false]
      apply ih (.call drawn ok) further
      rw [List.length_append, filled]
      rw [Nat.mul_succ] at enough
      omega
    · simp only [inflateInput, ended, all]

/-- A body in a framing is inflated to what it encodes. -/
theorem inflateBody_decodes (documented : zlib.Documented format bound) {fuel : Nat}
    {windowBits : Int} (framed : windowBits ∈ framings) {text body : Bytes}
    (encoded : format windowBits text = some body) (fits : text.length ≤ uIntMax)
    (enough : body.length < zlibBuffer * fuel) :
    inflateBody zlib fuel text windowBits = some (.ok body) := by
  obtain ⟨start, inited, decodes⟩ := documented.inflates windowBits framed
  have checked : checkedZlibSize text.length = .ok text.length := by
    rw [checkedZlibSize, if_neg (by omega)]
  simp only [inflateBody, inited, checked]
  exact inflateInput_decodes decodes encoded .start List.nil_prefix (by simpa using enough)

/-- A compressed request body is read back by the decoder of the same package, and
so is a deflated one with its header or without it. -/
theorem zlib_round_trip (documented : zlib.Documented format bound) (body : Bytes) {fuel : Nat}
    (room : bound body < zlibBuffer * fuel) (enough : body.length < zlibBuffer * fuel)
    (minSizeBytes : UInt64) (large : minSizeBytes.toNat ≤ body.length) :
    (∃ text, gzipCompress zlib minSizeBytes fuel body body.length = some (.ok (some text)) ∧
      (text.length ≤ uIntMax → ∀ contentEncoding,
        normalizeResponseEncoding contentEncoding = bytes "gzip" →
        zlibDecode zlib fuel text contentEncoding = some (.ok body))) ∧
    ∀ text contentEncoding, normalizeResponseEncoding contentEncoding = bytes "deflate" →
      text.length ≤ uIntMax →
      (format maxWbits text = some body ∨
        (∃ what, inflateBody zlib fuel text maxWbits = some (.error (.runtimeError what))) ∧
          format (-maxWbits) text = some body) →
      zlibDecode zlib fuel text contentEncoding = some (.ok body) := by
  have gzipFraming : maxWbits + 16 ∈ framings := by decide
  have zlibFraming : maxWbits ∈ framings := by decide
  have rawFraming : -maxWbits ∈ framings := by decide
  constructor
  · obtain ⟨text, deflated, encoded⟩ := deflateBody_encodes documented room gzipFraming
    refine ⟨text, ?_, ?_⟩
    · rw [gzipCompress, if_neg (by omega), deflated]
      rfl
    · intro fits contentEncoding gzip
      simp only [zlibDecode, gzip, if_true]
      exact inflateBody_decodes documented gzipFraming encoded fits enough
  · intro text contentEncoding deflate fits encoded
    have other : bytes "deflate" ≠ bytes "gzip" := by decide
    simp only [zlibDecode, deflate, if_neg other, if_true]
    rcases encoded with encoded | ⟨⟨what, failed⟩, encoded⟩
    · rw [inflateDeflateBody, inflateBody_decodes documented zlibFraming encoded fits enough]
    · rw [inflateDeflateBody, failed]
      exact inflateBody_decodes documented rawFraming encoded fits enough

end

/-! ### A zlib that stores -/

def sampleBody : Bytes := bytes "\x7b\"TableName\":\"t\"\x7d"

/-- What zlib makes of the sample in each framing. The compressed bytes are the same; a
gzip member adds a header of ten bytes and the checksum and size of the body. -/
def sampleStream (windowBits : Int) : Bytes :=
  let raw : Bytes :=
    [171, 86, 10, 73, 76, 202, 73, 245, 75, 204, 77, 85, 178, 82, 42, 81, 170, 5, 0]
  if windowBits = maxWbits + 16 then
    [31, 139, 8, 0, 0, 0, 0, 0, 0, 3] ++ raw ++ [124, 114, 54, 215, 17, 0, 0, 0]
  else if windowBits = maxWbits then [120, 156] ++ raw ++ [52, 42, 5, 152]
  else raw

/-- Any other body is kept as it is, behind a zero. -/
def storedText (windowBits : Int) (body : Bytes) : Bytes :=
  if body = sampleBody then sampleStream windowBits else 0 :: body

def storedFormat (windowBits : Int) (text : Bytes) : Option Bytes :=
  if text = sampleStream windowBits then some sampleBody
  else if text.head? = some 0 then some text.tail
  else none

structure Storing where
  windowBits : Int
  taken : Bytes := []
  pending : Option Bytes := none

def Storing.init (windowBits : Int) : Option Storing :=
  if windowBits ∈ framings then some { windowBits := windowBits } else none

def storing : Zlib Storing Storing where
  deflateInit2 := Storing.init
  deflate stream input room
    | .noFlush => ⟨{ stream with taken := stream.taken ++ input }, [], [], .ok⟩
    | .finish =>
      let text := stream.pending.getD (storedText stream.windowBits (stream.taken ++ input))
      ⟨{ stream with pending := some (text.drop room) }, [], text.take room,
        if text.length ≤ room then .streamEnd else .ok⟩
  inflateInit2 := Storing.init
  inflate stream input room _ :=
    match stream.pending.or (storedFormat stream.windowBits input) with
    | none => ⟨stream, input, [], .failed⟩
    | some body =>
      ⟨{ stream with pending := some (body.drop room) }, [], body.take room,
        if body.length ≤ room then .streamEnd else .ok⟩

theorem storedFormat_storedText (windowBits : Int) (body : Bytes) :
    storedFormat windowBits (storedText windowBits body) = some body := by
  by_cases sample : body = sampleBody
  · rw [storedText, if_pos sample, storedFormat, if_pos rfl, sample]
  · have other : 0 :: body ≠ sampleStream windowBits := by
      rw [sampleStream]
      split
      · simp
      · split <;> simp
    rw [storedText, if_neg sample, storedFormat, if_neg other]
    rfl

theorem storedText_length_le (windowBits : Int) (body : Bytes) :
    (storedText windowBits body).length ≤ body.length + 20 := by
  rw [storedText]
  split
  · rename_i sample
    have size : sampleBody.length = 17 := by decide
    rw [sample, size, sampleStream]
    split
    · simp
    · split <;> simp
  · simp

/-- The invariant of feeding the storing stream: until it is told to finish it gives
nothing back, and from then on what it gave and what is pending make up the
encoding. -/
theorem storing_fed {windowBits : Int} {taken given : Bytes} {full : Bool}
    {finishing : Option Bytes} {stream : Storing}
    (fed : Fed storing.deflate { windowBits := windowBits } taken given full finishing stream) :
    stream.windowBits = windowBits ∧
      (stream.pending = none ∧ given = [] ∧ stream.taken = taken ∨
        finishing = some [] ∧ ∃ rest, stream.pending = some rest ∧
          given ++ rest = storedText windowBits taken) := by
  induction fed with
  | start => exact ⟨rfl, .inl ⟨rfl, rfl, rfl⟩⟩
  | @call taken given input part full finishing stream room flush before allowed split ok ih =>
    obtain ⟨same, holds⟩ := ih
    cases flush with
    | noFlush =>
      have whole : input = part := split.trans (List.append_nil part)
      rcases holds with ⟨fresh, nothing, taken⟩ | ⟨finishing, _⟩
      · refine ⟨same, .inl ⟨fresh, ?_, ?_⟩⟩
        · rw [nothing]
          rfl
        · rw [← whole, ← taken]
          rfl
      · obtain ⟨finish, _⟩ := allowed _ finishing
        contradiction
    | finish =>
      have whole : input = part := split.trans (List.append_nil part)
      refine ⟨same, .inr ⟨rfl, _, rfl, ?_⟩⟩
      rcases holds with ⟨fresh, nothing, taken⟩ | ⟨finishing, rest, pending, text⟩
      · simp only [storing, fresh, nothing, same, taken, Option.getD_none, List.nil_append,
          List.take_append_drop, whole]
      · obtain ⟨_, none⟩ := allowed _ finishing
        rw [← whole, none]
        simp only [storing, pending, Option.getD_some, List.append_assoc, List.take_append_drop,
          List.append_nil, text]

theorem storing_encodes (windowBits : Int) :
    Encodes storing.deflate { windowBits := windowBits } (storedFormat windowBits)
      (fun body => body.length + 20) := by
  constructor
  · intro stream input room flush
    cases flush <;> exact List.nil_suffix
  · intro taken given full finishing stream input room flush _ _ _ _
    cases flush with
    | noFlush => exact .inl rfl
    | finish =>
      by_cases fits : (stream.pending.getD
          (storedText stream.windowBits (stream.taken ++ input))).length ≤ room
      · exact .inr ⟨rfl, if_pos fits⟩
      · exact .inl (if_neg fits)
  · intro taken given full finishing stream input room flush _ _ ok more
    cases flush with
    | noFlush =>
      rcases more with none | none
      · contradiction
      · exact absurd rfl none
    | finish =>
      simp only [storing] at ok ⊢
      split at ok
      · contradiction
      · rw [List.length_take]
        omega
  · intro taken given full finishing stream input room flush fed allowed ended
    cases flush with
    | noFlush => contradiction
    | finish =>
      obtain ⟨same, holds⟩ := storing_fed fed
      simp only [storing] at ended ⊢
      split at ended
      · rename_i fits
        rw [List.take_of_length_le fits]
        rcases holds with ⟨fresh, nothing, taken⟩ | ⟨finishing, rest, pending, text⟩
        · rw [fresh, nothing, same, taken]
          exact storedFormat_storedText _ _
        · obtain ⟨_, none⟩ := allowed _ finishing
          rw [pending, none, List.append_nil, List.append_nil, Option.getD_some, text]
          exact storedFormat_storedText _ _
      · contradiction
  · intro taken given full finishing stream whole fed within
    obtain ⟨_, ⟨_, nothing, _⟩ | ⟨_, rest, _, text⟩⟩ := storing_fed fed
    · simp [nothing]
    · have size := congrArg List.length text
      have limit := storedText_length_le windowBits taken
      have shorter := within.length_le
      rw [List.length_append] at size
      omega

theorem storing_decodes (windowBits : Int) :
    Decodes storing.inflate { windowBits := windowBits } (storedFormat windowBits) := by
  have drawn : ∀ {text given rest whole : Bytes} {stream : Storing},
      Drawn storing.inflate { windowBits := windowBits } text given rest stream →
      storedFormat windowBits text = some whole →
      ∃ body, stream.pending.or (storedFormat stream.windowBits rest) = some body ∧
        given ++ body = whole := by
    intro text given rest whole stream drawn decodes
    induction drawn with
    | start => exact ⟨whole, decodes, rfl⟩
    | @call given rest stream room before ok ih =>
      obtain ⟨body, pending, split⟩ := ih
      refine ⟨body.drop room, ?_, ?_⟩
      · simp [storing, pending]
      · rw [← split]
        simp [storing, pending]
  constructor
  intro text given rest stream room whole fed some decodes
  obtain ⟨body, pending, split⟩ := drawn fed decodes
  by_cases fits : body.length ≤ room
  · refine .inr ⟨?_, ?_⟩
    · simp [storing, pending, fits]
    · simp [storing, pending, List.take_of_length_le fits, split]
  · refine .inl ⟨?_, ?_, ?_⟩
    · simp [storing, pending, fits]
    · simp only [storing, pending, List.length_take]
      omega
    · simp only [storing, pending]
      rw [← split]
      exact List.prefix_append_right_inj given |>.mpr (List.take_prefix _ _)

theorem storing_documented :
    storing.Documented storedFormat (fun body => body.length + 20) := by
  constructor
  · intro windowBits framed
    exact ⟨_, if_pos framed, storing_encodes windowBits⟩
  · intro windowBits framed
    exact ⟨_, if_pos framed, storing_decodes windowBits⟩

/-- A request body, compressed as zlib does it and read back; a raw stream is read as
well, since its first bytes are no header of zlib. -/
theorem sample_round_trip :
    gzipCompress storing 0 1 sampleBody 17 = some (.ok (some (sampleStream (maxWbits + 16)))) ∧
      zlibDecode storing 1 (sampleStream (maxWbits + 16)) (bytes "GZip") =
        some (.ok sampleBody) ∧
      zlibDecode storing 1 (sampleStream (-maxWbits)) (bytes "deflate") =
        some (.ok sampleBody) := by
  have compressed : gzipCompress storing 0 1 sampleBody sampleBody.length =
      some (.ok (some (sampleStream (maxWbits + 16)))) := by
    decide +kernel
  have refused : inflateBody storing 1 (sampleStream (-maxWbits)) maxWbits =
      some (.error (.runtimeError (bytes "failed to inflate compressed HTTP response"))) := by
    decide +kernel
  obtain ⟨gzips, deflates⟩ := @zlib_round_trip _ _ _ _ _ storing_documented sampleBody 1
    (by decide) (by decide) 0 (by decide)
  refine ⟨compressed, ?_, ?_⟩
  · obtain ⟨text, same, reads⟩ := gzips
    obtain rfl := Option.some.inj (Except.ok.inj (Option.some.inj (compressed.symm.trans same)))
    exact reads (by decide) _ (by decide)
  · exact deflates _ _ (by decide) (by decide) (.inr ⟨⟨_, refused⟩, by decide +kernel⟩)

end AlternatorClient
