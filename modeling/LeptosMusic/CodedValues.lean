import Mathlib.Tactic.Ring
import LeptosMusic.CodedOutputStream

/-!
# Values on the wire

Every type has a method that writes a value without its tag and a function that computes the
size beforehand. Both agree with `encoding`, which says what the bytes are.
-/
namespace LeptosMusic
open Runs (run)

/-- The `GPBDataType`s other than messages and groups. -/
inductive PlainType where
  | bool
  | fixed32
  | sfixed32
  | float
  | fixed64
  | sfixed64
  | double
  | int32
  | int64
  | sint32
  | sint64
  | uint32
  | uint64
  | bytes
  | string
  | enum
  deriving DecidableEq, Repr

namespace PlainType

/-- Floating-point numbers are kept as their bits. -/
abbrev Value : PlainType → Type
  | bool => Bool
  | fixed32 | sfixed32 | float | int32 | sint32 | uint32 | enum => BitVec 32
  | fixed64 | sfixed64 | double | int64 | sint64 | uint64 => BitVec 64
  | bytes => NSData
  | string => NSString

/-- `GPBWireFormatForType(type, NO)` -/
def wireFormat : PlainType → GPBWireFormat
  | bool => .varint
  | fixed32 => .fixed32
  | sfixed32 => .fixed32
  | float => .fixed32
  | fixed64 => .fixed64
  | sfixed64 => .fixed64
  | double => .fixed64
  | int32 => .varint
  | int64 => .varint
  | sint32 => .varint
  | sint64 => .varint
  | uint32 => .varint
  | uint64 => .varint
  | bytes => .lengthDelimited
  | string => .lengthDelimited
  | enum => .varint

/-- `GPBFieldTypeIsPackable`: everything but strings and data. -/
def packable : PlainType → Bool
  | bytes | string => false
  | _ => true

end PlainType

namespace GPBOutputBufferState

def writeTagWithFormat (state : GPBOutputBufferState) (fieldNumber : BitVec 32)
    (format : GPBWireFormat) : WriteOutcome :=
  state.writeRawVarint (GPBWireFormat.makeTag fieldNumber format)

def writeInt32NoTag (state : GPBOutputBufferState) (value : BitVec 32) : WriteOutcome :=
  if 0 ≤ value.toInt then state.writeRawVarint value
  else state.writeRawVarint (value.signExtend 64)

/-- `(value >> shift) & 0xFF` -/
def byteAt {w : Nat} (value : BitVec w) (shift : Nat) : UInt8 :=
  UInt8.ofBitVec ((value.sshiftRight shift &&& 0xFF#w).setWidth 8)

def writeRawLittleEndian32 (state : GPBOutputBufferState) (value : BitVec 32) : WriteOutcome :=
  (state.writeRawByte (byteAt value 0)).andThen fun state =>
    (state.writeRawByte (byteAt value 8)).andThen fun state =>
      (state.writeRawByte (byteAt value 16)).andThen fun state =>
        state.writeRawByte (byteAt value 24)

def writeRawLittleEndian64 (state : GPBOutputBufferState) (value : BitVec 64) : WriteOutcome :=
  (state.writeRawByte (byteAt value 0)).andThen fun state =>
    (state.writeRawByte (byteAt value 8)).andThen fun state =>
      (state.writeRawByte (byteAt value 16)).andThen fun state =>
        (state.writeRawByte (byteAt value 24)).andThen fun state =>
          (state.writeRawByte (byteAt value 32)).andThen fun state =>
            (state.writeRawByte (byteAt value 40)).andThen fun state =>
              (state.writeRawByte (byteAt value 48)).andThen fun state =>
                state.writeRawByte (byteAt value 56)

/-- `value ? 1 : 0` -/
def boolByte (value : Bool) : UInt8 := if value then 1 else 0

def writeBoolNoTag (state : GPBOutputBufferState) (value : Bool) : WriteOutcome :=
  state.writeRawByte (boolByte value)

/-- `lengthOfBytesUsingEncoding:` is 0 for a string without an encoding. -/
def lengthOfBytesUsingEncoding (value : NSString) : Nat := ((utf8Data value).getD []).length

/-- The bytes come from `CFStringGetCStringPtr`, `getBytes:` or `dataUsingEncoding:`, which
agree. -/
def writeStringNoTag (state : GPBOutputBufferState) (value : NSString) : WriteOutcome :=
  let length := lengthOfBytesUsingEncoding value
  (state.writeRawVarint (BitVec.ofNat 32 length)).andThen fun state =>
    if length = 0 then .done state
    else
      let bufferBytesLeft := state.size - state.position
      let utf8 := (utf8Data value).getD []
      if bufferBytesLeft ≥ length then state.memcpy utf8 else state.writeRawPtr utf8

def writeBytesNoTag (state : GPBOutputBufferState) (value : NSData) : WriteOutcome :=
  (state.writeRawVarint (BitVec.ofNat 32 value.length)).andThen fun state => state.writeRawPtr value

def writeSInt32NoTag (state : GPBOutputBufferState) (value : BitVec 32) : WriteOutcome :=
  state.writeRawVarint (GPBEncodeZigZag32 value)

def writeSInt64NoTag (state : GPBOutputBufferState) (value : BitVec 64) : WriteOutcome :=
  state.writeRawVarint (GPBEncodeZigZag64 value)

/-- The `write…NoTag:` of the type. -/
def writeNoTag : (type : PlainType) → type.Value → GPBOutputBufferState → WriteOutcome
  | .bool, value, state => state.writeBoolNoTag value
  | .fixed32, value, state => state.writeRawLittleEndian32 value
  | .sfixed32, value, state => state.writeRawLittleEndian32 value
  | .float, value, state => state.writeRawLittleEndian32 value
  | .fixed64, value, state => state.writeRawLittleEndian64 value
  | .sfixed64, value, state => state.writeRawLittleEndian64 value
  | .double, value, state => state.writeRawLittleEndian64 value
  | .int32, value, state => state.writeInt32NoTag value
  | .int64, value, state => @writeRawVarint 64 state value
  | .sint32, value, state => state.writeSInt32NoTag value
  | .sint64, value, state => state.writeSInt64NoTag value
  | .uint32, value, state => @writeRawVarint 32 state value
  | .uint64, value, state => @writeRawVarint 64 state value
  | .bytes, value, state => state.writeBytesNoTag value
  | .string, value, state => state.writeStringNoTag value
  | .enum, value, state => @writeRawVarint 32 state value

/-- The `write…:value:` of the type. -/
def writeValue (type : PlainType) (fieldNumber : BitVec 32) (value : type.Value)
    (state : GPBOutputBufferState) : WriteOutcome :=
  (state.writeTagWithFormat fieldNumber type.wireFormat).andThen (writeNoTag type value)

end GPBOutputBufferState

def computeRawVarint32Size (value : BitVec 32) : Nat :=
  if value &&& 0xffffffff#32 <<< 7 = 0 then 1
  else if value &&& 0xffffffff#32 <<< 14 = 0 then 2
  else if value &&& 0xffffffff#32 <<< 21 = 0 then 3
  else if value &&& 0xffffffff#32 <<< 28 = 0 then 4
  else 5

/-- The truncation is the source's. -/
def computeRawVarint32SizeForInteger (value : Nat) : Nat :=
  computeRawVarint32Size (BitVec.ofNat 32 value)

def computeRawVarint64Size (value : BitVec 64) : Nat :=
  if value &&& 0xffffffffffffffff#64 <<< 7 = 0 then 1
  else if value &&& 0xffffffffffffffff#64 <<< 14 = 0 then 2
  else if value &&& 0xffffffffffffffff#64 <<< 21 = 0 then 3
  else if value &&& 0xffffffffffffffff#64 <<< 28 = 0 then 4
  else if value &&& 0xffffffffffffffff#64 <<< 35 = 0 then 5
  else if value &&& 0xffffffffffffffff#64 <<< 42 = 0 then 6
  else if value &&& 0xffffffffffffffff#64 <<< 49 = 0 then 7
  else if value &&& 0xffffffffffffffff#64 <<< 56 = 0 then 8
  else if value &&& 0xffffffffffffffff#64 <<< 63 = 0 then 9
  else 10

def computeTagSize (fieldNumber : BitVec 32) : Nat :=
  computeRawVarint32Size (GPBWireFormat.makeTag fieldNumber .varint)

def computeInt32SizeNoTag (value : BitVec 32) : Nat :=
  if 0 ≤ value.toInt then computeRawVarint32Size value else 10

def computeStringSizeNoTag (value : NSString) : Nat :=
  let length := GPBOutputBufferState.lengthOfBytesUsingEncoding value
  computeRawVarint32SizeForInteger length + length

def computeBytesSizeNoTag (value : NSData) : Nat :=
  let valueLength := value.length
  computeRawVarint32SizeForInteger valueLength + valueLength

/-- The `GPBCompute…SizeNoTag` of the type. -/
def computeSizeNoTag : (type : PlainType) → type.Value → Nat
  | .bool, _ => 1
  | .fixed32, _ => 4
  | .sfixed32, _ => 4
  | .float, _ => 4
  | .fixed64, _ => 8
  | .sfixed64, _ => 8
  | .double, _ => 8
  | .int32, value => computeInt32SizeNoTag value
  | .int64, value => computeRawVarint64Size value
  | .sint32, value => computeRawVarint32Size (GPBEncodeZigZag32 value)
  | .sint64, value => computeRawVarint64Size (GPBEncodeZigZag64 value)
  | .uint32, value => computeRawVarint32Size value
  | .uint64, value => computeRawVarint64Size value
  | .bytes, value => computeBytesSizeNoTag value
  | .string, value => computeStringSizeNoTag value
  | .enum, value => computeRawVarint32Size value

/-- The `GPBCompute…Size` of the type. -/
def computeSize (type : PlainType) (fieldNumber : BitVec 32) (value : type.Value) : Nat :=
  computeTagSize fieldNumber + computeSizeNoTag type value

/-- A length of 32 bits in front of the bytes. -/
def lengthPrefixed (bytes : NSData) : NSData := Varints.encode (bytes.length % 2 ^ 32) ++ bytes

namespace PlainType

/-- The bytes of a value. -/
def encoding : (type : PlainType) → type.Value → NSData
  | bool, value => [GPBOutputBufferState.boolByte value]
  | fixed32, value => Varints.littleEndian 4 (BitVec.toNat value)
  | sfixed32, value => Varints.littleEndian 4 (BitVec.toNat value)
  | float, value => Varints.littleEndian 4 (BitVec.toNat value)
  | fixed64, value => Varints.littleEndian 8 (BitVec.toNat value)
  | sfixed64, value => Varints.littleEndian 8 (BitVec.toNat value)
  | double, value => Varints.littleEndian 8 (BitVec.toNat value)
  | int32, value => Varints.encode (BitVec.signExtend 64 value).toNat
  | int64, value => Varints.encode (BitVec.toNat value)
  | sint32, value => Varints.encode (GPBEncodeZigZag32 value).toNat
  | sint64, value => Varints.encode (GPBEncodeZigZag64 value).toNat
  | uint32, value => Varints.encode (BitVec.toNat value)
  | uint64, value => Varints.encode (BitVec.toNat value)
  | bytes, value => lengthPrefixed value
  | string, value => lengthPrefixed ((utf8Data value).getD [])
  | enum, value => Varints.encode (BitVec.toNat value)

end PlainType

/-- The tag of a field. -/
def tagBytes (fieldNumber : BitVec 32) (format : GPBWireFormat) : NSData :=
  Varints.encode (GPBWireFormat.makeTag fieldNumber format).toNat

namespace GPBOutputBufferState

theorem emits_writeTagWithFormat (fieldNumber : BitVec 32) (format : GPBWireFormat) :
    Emits (·.writeTagWithFormat fieldNumber format) (tagBytes fieldNumber format) :=
  emits_writeRawVarint _

theorem byteAt_eq {w : Nat} (value : BitVec w) {shift : Nat} (inside : shift + 8 ≤ w) :
    byteAt value shift = UInt8.ofNat (value.toNat / 2 ^ shift) := by
  have wide : 2 ^ 8 ≤ 2 ^ w := Nat.pow_le_pow_right (by decide) (by omega)
  have bits : (value.sshiftRight shift &&& 0xFF#w).setWidth 8 = (value >>> shift).setWidth 8 := by
    ext i low
    have mask : (0xFF#w).getLsbD i = true := by
      rw [BitVec.getLsbD_ofNat, Nat.testBit_two_pow_sub_one (n := 8)]
      simp only [decide_eq_true low, Bool.and_true, decide_eq_true_eq]
      omega
    rw [BitVec.getElem_setWidth, BitVec.getElem_setWidth, BitVec.getLsbD_and, mask, Bool.and_true,
      BitVec.getLsbD_sshiftRight, BitVec.getLsbD_ushiftRight, if_pos (by omega),
      decide_eq_false (by omega : ¬ w ≤ i)]
    rfl
  apply UInt8.toNat_inj.mp
  rw [byteAt, bits, UInt8.toNat_ofBitVec, BitVec.toNat_setWidth, BitVec.toNat_ushiftRight,
    Nat.shiftRight_eq_div_pow, UInt8.toNat_ofNat']

theorem emits_writeRawLittleEndian32 (value : BitVec 32) :
    Emits (·.writeRawLittleEndian32 value) (Varints.littleEndian 4 value.toNat) := by
  have parts : Varints.littleEndian 4 value.toNat =
      [byteAt value 0] ++ ([byteAt value 8] ++ ([byteAt value 16] ++ [byteAt value 24])) := by
    simp [Varints.littleEndian, Nat.div_div_eq_div_mul, byteAt_eq]
  rw [parts]
  exact (emits_byte _).andThen <| (emits_byte _).andThen <| (emits_byte _).andThen (emits_byte _)

theorem emits_writeRawLittleEndian64 (value : BitVec 64) :
    Emits (·.writeRawLittleEndian64 value) (Varints.littleEndian 8 value.toNat) := by
  have parts : Varints.littleEndian 8 value.toNat =
      [byteAt value 0] ++ ([byteAt value 8] ++ ([byteAt value 16] ++ ([byteAt value 24] ++
        ([byteAt value 32] ++ ([byteAt value 40] ++ ([byteAt value 48] ++ [byteAt value 56])))))) := by
    simp [Varints.littleEndian, Nat.div_div_eq_div_mul, byteAt_eq]
  rw [parts]
  exact (emits_byte _).andThen <| (emits_byte _).andThen <| (emits_byte _).andThen <|
    (emits_byte _).andThen <| (emits_byte _).andThen <| (emits_byte _).andThen <|
    (emits_byte _).andThen (emits_byte _)

theorem signExtend_nonneg {value : BitVec 32} (nonneg : 0 ≤ value.toInt) :
    (value.signExtend 64).toNat = value.toNat := by
  have sign : value.msb = false := by
    rw [BitVec.msb_eq_toInt]
    exact decide_eq_false (by omega)
  rw [BitVec.signExtend_eq_setWidth_of_msb_false sign, BitVec.toNat_setWidth]
  exact Nat.mod_eq_of_lt (by omega)

theorem signExtend_negative {value : BitVec 32} (negative : value.toInt < 0) :
    2 ^ 63 ≤ (value.signExtend 64).toNat := by
  have same := @BitVec.toInt_signExtend_of_le 32 64 value (by decide)
  have sign : (value.signExtend 64).msb = true := by
    rw [BitVec.msb_eq_toInt, same]
    exact decide_eq_true negative
  exact BitVec.le_toNat_of_msb_true sign

theorem emits_writeInt32NoTag (value : BitVec 32) :
    Emits (·.writeInt32NoTag value) (Varints.encode (value.signExtend 64).toNat) := by
  unfold writeInt32NoTag
  split_ifs with nonneg
  · rw [signExtend_nonneg nonneg]
    exact emits_writeRawVarint value
  · exact emits_writeRawVarint _

theorem emits_writeBytesNoTag (value : NSData) :
    Emits (·.writeBytesNoTag value) (lengthPrefixed value) := by
  have length := emits_writeRawVarint (BitVec.ofNat 32 value.length)
  rw [BitVec.toNat_ofNat] at length
  exact length.andThen (emits_block value)

/-- The short cut for a string that has room is the one of `writeRawPtr:`. -/
theorem shortCut_eq (value : NSData) (state : GPBOutputBufferState) :
    (if value.length = 0 then .done state
      else if state.size - state.position ≥ value.length then state.memcpy value
      else state.writeRawPtr value) = state.writeRawPtr value := by
  rw [writeRawPtr]
  by_cases empty : value.length = 0
  · rw [if_pos empty, if_pos empty]
  · rw [if_neg empty, if_neg empty]
    by_cases room : state.size - state.position ≥ value.length
    · rw [if_pos room, if_pos room]
    · rw [if_neg room]

theorem writeStringNoTag_eq (value : NSString) (state : GPBOutputBufferState) :
    state.writeStringNoTag value = state.writeBytesNoTag ((utf8Data value).getD []) := by
  rw [writeStringNoTag, writeBytesNoTag]
  congr 1
  funext state
  exact shortCut_eq _ state

theorem emits_writeStringNoTag (value : NSString) :
    Emits (·.writeStringNoTag value) (lengthPrefixed ((utf8Data value).getD [])) := by
  simp only [writeStringNoTag_eq]
  exact emits_writeBytesNoTag _

theorem emits_writeNoTag (type : PlainType) (value : type.Value) :
    Emits (writeNoTag type value) (type.encoding value) := by
  cases type with
  | bool => exact emits_byte _
  | fixed32 => exact emits_writeRawLittleEndian32 value
  | sfixed32 => exact emits_writeRawLittleEndian32 value
  | float => exact emits_writeRawLittleEndian32 value
  | fixed64 => exact emits_writeRawLittleEndian64 value
  | sfixed64 => exact emits_writeRawLittleEndian64 value
  | double => exact emits_writeRawLittleEndian64 value
  | int32 => exact emits_writeInt32NoTag value
  | int64 => exact @emits_writeRawVarint 64 value
  | sint32 => exact emits_writeRawVarint _
  | sint64 => exact emits_writeRawVarint _
  | uint32 => exact @emits_writeRawVarint 32 value
  | uint64 => exact @emits_writeRawVarint 64 value
  | bytes => exact emits_writeBytesNoTag value
  | string => exact emits_writeStringNoTag value
  | enum => exact @emits_writeRawVarint 32 value

theorem emits_writeValue (type : PlainType) (fieldNumber : BitVec 32) (value : type.Value) :
    Emits (writeValue type fieldNumber value)
      (tagBytes fieldNumber type.wireFormat ++ type.encoding value) :=
  (emits_writeTagWithFormat fieldNumber type.wireFormat).andThen (emits_writeNoTag type value)

end GPBOutputBufferState

theorem fits_iff {w : Nat} (value : BitVec w) (k : Nat) :
    value &&& BitVec.allOnes w <<< k = 0 ↔ value.toNat < 2 ^ k := by
  apply GPBOutputBufferState.and_eq_zero_iff_lt
  intro i inside
  rw [BitVec.getLsbD_shiftLeft, BitVec.getLsbD_allOnes, decide_eq_true inside,
    decide_eq_true (Nat.lt_of_le_of_lt (Nat.sub_le i k) inside), Bool.and_true, Bool.true_and,
    ← decide_not]
  simp only [Nat.not_lt]

theorem computeRawVarint32Size_eq (value : BitVec 32) :
    computeRawVarint32Size value = (Varints.encode value.toNat).length := by
  have bound := value.isLt
  have fits (k : Nat) : value &&& 0xffffffff#32 <<< k = 0 ↔ value.toNat < 2 ^ k := fits_iff value k
  have length (k : Nat) := Varints.encode_length_le_iff value.toNat k
  have one := length 0
  have two := length 1
  have three := length 2
  have four := length 3
  have five := length 4
  have positive := Varints.encode_length_pos value.toNat
  simp only [computeRawVarint32Size, fits]
  split_ifs <;> omega

theorem computeRawVarint64Size_eq (value : BitVec 64) :
    computeRawVarint64Size value = (Varints.encode value.toNat).length := by
  have bound := value.isLt
  have fits (k : Nat) : value &&& 0xffffffffffffffff#64 <<< k = 0 ↔ value.toNat < 2 ^ k :=
    fits_iff value k
  have length (k : Nat) := Varints.encode_length_le_iff value.toNat k
  have one := length 0
  have two := length 1
  have three := length 2
  have four := length 3
  have five := length 4
  have six := length 5
  have seven := length 6
  have eight := length 7
  have nine := length 8
  have ten := length 9
  have positive := Varints.encode_length_pos value.toNat
  simp only [computeRawVarint64Size, fits]
  split_ifs <;> omega

theorem computeTagSize_eq (fieldNumber : BitVec 32) (format : GPBWireFormat) :
    computeTagSize fieldNumber = (tagBytes fieldNumber format).length := by
  have plain := GPBWireFormat.toNat_makeTag_mod fieldNumber .varint
  have other := GPBWireFormat.toNat_makeTag_mod fieldNumber format
  have low := GPBWireFormat.rawValue_lt format
  have zero : GPBWireFormat.varint.rawValue.toNat = 0 := rfl
  rw [computeTagSize, computeRawVarint32Size_eq, tagBytes, plain, other, zero]
  apply Varints.encode_length_congr
  intro k
  have power : 128 ^ (k + 1) = 8 * (16 * 128 ^ k) := by rw [Nat.pow_succ]; ring
  omega

theorem computeInt32SizeNoTag_eq (value : BitVec 32) :
    computeInt32SizeNoTag value = (Varints.encode (value.signExtend 64).toNat).length := by
  unfold computeInt32SizeNoTag
  split_ifs with nonneg
  · rw [GPBOutputBufferState.signExtend_nonneg nonneg]
    exact computeRawVarint32Size_eq value
  · have low := GPBOutputBufferState.signExtend_negative (Int.not_le.mp nonneg)
    exact (Varints.encode_length_eq low (by have := (value.signExtend 64).isLt; omega)).symm

theorem computeBytesSizeNoTag_eq (value : NSData) :
    computeBytesSizeNoTag value = (lengthPrefixed value).length := by
  rw [computeBytesSizeNoTag, computeRawVarint32SizeForInteger, computeRawVarint32Size_eq,
    BitVec.toNat_ofNat, lengthPrefixed, List.length_append]

theorem computeSizeNoTag_eq (type : PlainType) (value : type.Value) :
    computeSizeNoTag type value = (type.encoding value).length := by
  cases type with
  | bool => rfl
  | fixed32 => exact (Varints.littleEndian_length 4 _).symm
  | sfixed32 => exact (Varints.littleEndian_length 4 _).symm
  | float => exact (Varints.littleEndian_length 4 _).symm
  | fixed64 => exact (Varints.littleEndian_length 8 _).symm
  | sfixed64 => exact (Varints.littleEndian_length 8 _).symm
  | double => exact (Varints.littleEndian_length 8 _).symm
  | int32 => exact computeInt32SizeNoTag_eq value
  | int64 => exact computeRawVarint64Size_eq value
  | sint32 => exact computeRawVarint32Size_eq _
  | sint64 => exact computeRawVarint64Size_eq _
  | uint32 => exact computeRawVarint32Size_eq value
  | uint64 => exact computeRawVarint64Size_eq value
  | bytes => exact computeBytesSizeNoTag_eq value
  | string => exact computeBytesSizeNoTag_eq _
  | enum => exact computeRawVarint32Size_eq value

theorem computeSize_eq (type : PlainType) (fieldNumber : BitVec 32) (value : type.Value) :
    computeSize type fieldNumber value =
      (tagBytes fieldNumber type.wireFormat ++ type.encoding value).length := by
  rw [computeSize, computeTagSize_eq fieldNumber type.wireFormat, computeSizeNoTag_eq,
    List.length_append]

/-- The `write…Array:values:tag:` of the type. With a tag the values are packed; strings and data
have none. -/
def writeArray (type : PlainType) (fieldNumber : BitVec 32) (values : List type.Value)
    (tag : BitVec 32) (state : GPBOutputBufferState) : WriteOutcome :=
  if tag ≠ 0 then
    if values.length = 0 then .done state
    else
      let dataSize := (values.map (computeSizeNoTag type)).sum
      (state.writeRawVarint tag).andThen fun state =>
        (state.writeRawVarint (BitVec.ofNat 32 dataSize)).andThen fun state =>
          run (fun state value => GPBOutputBufferState.writeNoTag type value state) state values
  else run (fun state value => GPBOutputBufferState.writeValue type fieldNumber value state) state values

/-- Each value behind a tag of its own. -/
def PlainType.unpacked (type : PlainType) (fieldNumber : BitVec 32) (values : List type.Value) :
    NSData :=
  values.flatMap fun value => tagBytes fieldNumber type.wireFormat ++ type.encoding value

/-- All values behind one tag and their common length. -/
def PlainType.packed (type : PlainType) (tag : BitVec 32) (values : List type.Value) : NSData :=
  if values = [] then [] else Varints.encode tag.toNat ++ lengthPrefixed (values.flatMap type.encoding)

theorem sum_sizes (type : PlainType) (values : List type.Value) :
    (values.map (computeSizeNoTag type)).sum = (values.flatMap type.encoding).length := by
  induction values with
  | nil => rfl
  | cons value values ih =>
      rw [List.map_cons, List.sum_cons, ih, List.flatMap_cons, List.length_append,
        computeSizeNoTag_eq]

open GPBOutputBufferState in
theorem emits_writeArray_unpacked (type : PlainType) (fieldNumber : BitVec 32)
    (values : List type.Value) :
    Emits (writeArray type fieldNumber values 0) (type.unpacked fieldNumber values) :=
  emits_run (fun value => emits_writeValue type fieldNumber value) values

open GPBOutputBufferState in
theorem emits_writeArray_packed (type : PlainType) (fieldNumber : BitVec 32)
    (values : List type.Value) {tag : BitVec 32} (nonzero : tag ≠ 0) :
    Emits (writeArray type fieldNumber values tag) (type.packed tag values) := by
  unfold writeArray PlainType.packed
  cases values with
  | nil => simpa [nonzero] using emits_nothing
  | cons value values =>
      have size := emits_writeRawVarint
        (BitVec.ofNat 32 ((value :: values).flatMap type.encoding).length)
      rw [BitVec.toNat_ofNat] at size
      simp only [if_pos nonzero, List.length_cons, Nat.add_one_ne_zero, if_false, reduceCtorEq,
        sum_sizes]
      exact (emits_writeRawVarint tag).andThen
        (size.andThen (emits_run (fun value => emits_writeNoTag type value) (value :: values)))

end LeptosMusic
