import AlternatorClient.Foundation.Bytes

/-! `Murmur3H1`: the first half of MurmurHash3_x64_128, block loop, fall-through
tail and finalisation as the source computes them on 64-bit words. -/
namespace AlternatorClient
open Foundation

namespace Murmur3

def c1 : BitVec 64 := 0x87c37b91114253d5
def c2 : BitVec 64 := 0x4cf5ad432745937f
def fmix1 : BitVec 64 := 0xff51afd7ed558ccd
def fmix2 : BitVec 64 := 0xc4ceb9fe1a85ec53

def rotl (x : BitVec 64) (r : Nat) : BitVec 64 := x <<< r ||| x >>> (64 - r)

def fmix (k : BitVec 64) : BitVec 64 :=
  let k := k ^^^ k >>> 33
  let k := k * fmix1
  let k := k ^^^ k >>> 33
  let k := k * fmix2
  k ^^^ k >>> 33

/-- `static_cast<std::uint64_t>(data[i])`. -/
def byteAt (data : Bytes) (i : Nat) : BitVec 64 := BitVec.ofNat 64 (data.getD i 0).toNat

def readLittleEndian64 (data : Bytes) : BitVec 64 :=
  (List.range 8).foldl (fun out i => out ||| byteAt data i <<< (8 * i)) 0

/-- `k1 *= c1; k1 = Rotl(k1, 31); k1 *= c2;` -/
def mixK1 (k1 : BitVec 64) : BitVec 64 := rotl (k1 * c1) 31 * c2

/-- `k2 *= c2; k2 = Rotl(k2, 33); k2 *= c1;` -/
def mixK2 (k2 : BitVec 64) : BitVec 64 := rotl (k2 * c2) 33 * c1

/-- The body of the block loop on the block at the front of `data`. -/
def block (h : BitVec 64 × BitVec 64) (data : Bytes) : BitVec 64 × BitVec 64 :=
  let k1 := readLittleEndian64 data
  let k2 := readLittleEndian64 (data.drop 8)
  let h1 := h.1 ^^^ mixK1 k1
  let h1 := (rotl h1 27 + h.2) * 5 + 0x52dce729
  let h2 := h.2 ^^^ mixK2 k2
  let h2 := (rotl h2 31 + h1) * 5 + 0x38495ab5
  (h1, h2)

/-- Falling through the cases of one key: the switch enters at `remaining`, so
the case for byte `i` runs exactly when `i` is below it. -/
def tailKey (tail : Bytes) (remaining first : Nat) (cases : List Nat) : BitVec 64 :=
  cases.foldl (fun k i => if i < remaining then k ^^^ byteAt tail i <<< (8 * (i - first)) else k) 0

def tail (h : BitVec 64 × BitVec 64) (data : Bytes) (remaining : Nat) : BitVec 64 × BitVec 64 :=
  let k2 := tailKey data remaining 8 [14, 13, 12, 11, 10, 9, 8]
  let h2 := if 9 ≤ remaining then h.2 ^^^ mixK2 k2 else h.2
  let k1 := tailKey data remaining 0 [7, 6, 5, 4, 3, 2, 1, 0]
  let h1 := if 1 ≤ remaining then h.1 ^^^ mixK1 k1 else h.1
  (h1, h2)

end Murmur3

open Murmur3 in
/-- `Murmur3H1Bytes`; the two overloads differ only in how the bytes arrive. -/
def murmur3H1 (data : Bytes) : Int64 :=
  let length := data.length
  let nblocks := length / 16
  let h := (List.range nblocks).foldl (fun h i => block h (data.drop (i * 16))) (0, 0)
  let h := tail h (data.drop (nblocks * 16)) (length &&& 15)
  let h1 := h.1 ^^^ BitVec.ofNat 64 length
  let h2 := h.2 ^^^ BitVec.ofNat 64 length
  let h1 := h1 + h2
  let h2 := h2 + h1
  Int64.ofBitVec (fmix h1 + fmix h2)

/-- The overload on `std::string_view`, whose chars are signed: the cast of the
pointer reads the same eight bits of each as an unsigned byte. -/
def murmur3H1View (data : List Int8) : Int64 := murmur3H1 (data.map Int8.toUInt8)

inductive AttributeValueType where
  | string
  | number
  | binary
  deriving DecidableEq, Repr

def hashPrefixed (prefixByte : UInt8) (value : Bytes) : Int64 := murmur3H1 (prefixByte :: value)

def hashAttributeValue (type : AttributeValueType) (value : Bytes) : Int64 :=
  match type with
  | .string => hashPrefixed 0x01 value
  | .number => hashPrefixed 0x02 value
  | .binary => hashPrefixed 0x03 value

/-- The bytes that `insert` appends to a vector of unsigned bytes from a view:
each char is converted by value, modulo 256. -/
def insertChars (value : List Int8) : Bytes := value.map fun char => UInt8.ofInt char.toInt

def hashAttributeValueView (type : AttributeValueType) (value : List Int8) : Int64 :=
  hashAttributeValue type (insertChars value)

def hashBinaryAttributeValue (value : Bytes) : Int64 := murmur3H1 (0x03 :: value)

structure AttributeValue where
  type : AttributeValueType := .string
  text : Bytes := []
  binary : Bytes := []
  deriving DecidableEq, Repr

namespace AttributeValue

def ofString (value : Bytes) : AttributeValue := { type := .string, text := value }
def ofNumber (value : Bytes) : AttributeValue := { type := .number, text := value }
def ofBinary (value : Bytes) : AttributeValue := { type := .binary, binary := value }

def hash (value : AttributeValue) : Int64 :=
  if value.type = .binary then hashBinaryAttributeValue value.binary
  else hashAttributeValue value.type value.text

def payload (value : AttributeValue) : Bytes :=
  if value.type = .binary then value.binary else value.text

/-- The hash of a value depends on its type and its payload alone, so equal keys
hash alike whatever else the request says. -/
theorem hash_eq (value : AttributeValue) :
    value.hash = hashAttributeValue value.type value.payload := by
  unfold hash payload
  split
  · rename_i binary
    simp [binary, hashAttributeValue, hashPrefixed, hashBinaryAttributeValue]
  · rfl

end AttributeValue
end AlternatorClient
