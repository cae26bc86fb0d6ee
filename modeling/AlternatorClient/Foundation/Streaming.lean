import Mathlib.Data.List.Basic

/-! Coders of streams. A call is given input and room for output; it takes a part of
the input, fills a part of the room, and says whether the stream has ended. What is
documented of an encoder and of a decoder is stated of the calls made so far. -/
namespace Foundation
variable {σ α : Type}

inductive Flush where
  | noFlush
  | finish
  deriving DecidableEq

/-- What a call that finishes the stream leaves to be finished. -/
def Flush.finishing (rest : List α) : Flush → Option (List α)
  | .noFlush => none
  | .finish => some rest

inductive Code where
  | ok
  | streamEnd
  | failed
  deriving DecidableEq

/-- What a call comes back with: its new state, the input it left unread, the output
it produced and its return code. -/
structure Called (σ α : Type) where
  state : σ
  rest : List α
  produced : List α
  code : Code

/-- A stream that is being finished is given nothing new. -/
def Allowed (finishing : Option (List α)) (input : List α) (flush : Flush) : Prop :=
  ∀ rest, finishing = some rest → flush = .finish ∧ input = rest

/-- The calls an encoder has had: what they took and gave, whether the last one filled
its room, and what it left of the input if the stream is being finished. -/
inductive Fed (run : σ → List α → Nat → Flush → Called σ α) (start : σ) :
    List α → List α → Bool → Option (List α) → σ → Prop
  | start : Fed run start [] [] false none start
  | call {taken given input part : List α} {full : Bool} {finishing : Option (List α)} {state : σ}
      {room : Nat} {flush : Flush} (before : Fed run start taken given full finishing state)
      (allowed : Allowed finishing input flush) (split : input = part ++ (run state input room flush).rest)
      (ok : (run state input room flush).code = .ok) :
    Fed run start (taken ++ part) (given ++ (run state input room flush).produced)
      (decide ((run state input room flush).produced.length = room))
      (flush.finishing (run state input room flush).rest) (run state input room flush).state

/-- An encoder: a call goes on until the input is used up or the room is full, and
may be repeated when it is; a finished stream decodes to what was taken. -/
structure Encodes (run : σ → List α → Nat → Flush → Called σ α) (start : σ)
    (decode : List α → Option (List α)) (bound : List α → Nat) : Prop where
  takes : ∀ state input room flush, (run state input room flush).rest <:+ input
  goes : ∀ {taken given full finishing state} input room flush,
    Fed run start taken given full finishing state → Allowed finishing input flush →
    0 < room → input ≠ [] ∨ flush = .finish ∨ full = true →
    (run state input room flush).code = .ok ∨
      flush = .finish ∧ (run state input room flush).code = .streamEnd
  fills : ∀ {taken given full finishing state} input room flush,
    Fed run start taken given full finishing state → Allowed finishing input flush →
    (run state input room flush).code = .ok →
    flush = .finish ∨ (run state input room flush).rest ≠ [] →
    (run state input room flush).produced.length = room
  ends : ∀ {taken given full finishing state} input room flush,
    Fed run start taken given full finishing state → Allowed finishing input flush →
    (run state input room flush).code = .streamEnd →
    decode (given ++ (run state input room flush).produced) = some (taken ++ input)
  bounded : ∀ {taken given full finishing state} whole,
    Fed run start taken given full finishing state → taken <+: whole → given.length ≤ bound whole

/-- The calls a decoder has had that was given all of a text: what they gave, and
what is left of the text. -/
inductive Drawn (run : σ → List α → Nat → Flush → Called σ α) (start : σ) (text : List α) :
    List α → List α → σ → Prop
  | start : Drawn run start text [] text start
  | call {given rest : List α} {state : σ} {room : Nat} (before : Drawn run start text given rest state)
      (ok : (run state rest room .noFlush).code = .ok) :
    Drawn run start text (given ++ (run state rest room .noFlush).produced)
      (run state rest room .noFlush).rest (run state rest room .noFlush).state

/-- A decoder: a call fills its room with what comes next in the text, and the one
that gives the last of it says so. -/
structure Decodes (run : σ → List α → Nat → Flush → Called σ α) (start : σ)
    (decode : List α → Option (List α)) : Prop where
  goes : ∀ {text given rest state} room whole, Drawn run start text given rest state →
    0 < room → decode text = some whole →
    (run state rest room .noFlush).code = .ok ∧
        (run state rest room .noFlush).produced.length = room ∧
        given ++ (run state rest room .noFlush).produced <+: whole ∨
      (run state rest room .noFlush).code = .streamEnd ∧
        given ++ (run state rest room .noFlush).produced = whole

end Foundation
