import Mathlib.Data.List.Basic
import LeptosMusic.Library.Varints

/-!
# Tags and zigzag numbers of the protobuf wire format

The `int32_t` and `uint32_t` of the source share their 32 bits, its `int64_t` and `uint64_t`
their 64.
-/
namespace LeptosMusic

inductive GPBWireFormat where
  | varint
  | fixed64
  | lengthDelimited
  | startGroup
  | endGroup
  | fixed32
  deriving DecidableEq, Repr

namespace GPBWireFormat

def rawValue : GPBWireFormat → BitVec 32
  | varint => 0
  | fixed64 => 1
  | lengthDelimited => 2
  | startGroup => 3
  | endGroup => 4
  | fixed32 => 5

def tagTypeBits : Nat := 3
def tagTypeMask : BitVec 32 := 7

def makeTag (fieldNumber : BitVec 32) (wireType : GPBWireFormat) : BitVec 32 :=
  fieldNumber <<< tagTypeBits ||| wireType.rawValue

/-- The value of the cast; 6 and 7 name no wire format. -/
def ofRawValue (value : BitVec 32) : Option GPBWireFormat :=
  if value = 0 then some varint
  else if value = 1 then some fixed64
  else if value = 2 then some lengthDelimited
  else if value = 3 then some startGroup
  else if value = 4 then some endGroup
  else if value = 5 then some fixed32
  else none

def getTagWireType (tag : BitVec 32) : Option GPBWireFormat := ofRawValue (tag &&& tagTypeMask)

def getTagFieldNumber (tag : BitVec 32) : BitVec 32 := tag >>> tagTypeBits

def isValidTag (tag : BitVec 32) : Bool :=
  let formatBits := tag &&& tagTypeMask
  formatBits ≤ 5

/-- Numbers that survive the shift. -/
def FieldNumber (number : BitVec 32) : Prop := 0 < number.toNat ∧ number.toNat < 2 ^ 29

instance (number : BitVec 32) : Decidable (FieldNumber number) := inferInstanceAs (Decidable (_ ∧ _))

@[simp] theorem ofRawValue_rawValue (format : GPBWireFormat) :
    ofRawValue format.rawValue = some format := by
  cases format <;> rfl

theorem rawValue_lt (format : GPBWireFormat) : format.rawValue.toNat < 8 := by
  cases format <;> decide

theorem rawValue_of_ofRawValue {value : BitVec 32} {format : GPBWireFormat}
    (h : ofRawValue value = some format) : format.rawValue = value := by
  unfold ofRawValue at h
  split_ifs at h <;> cases h <;> simp only [rawValue] <;> exact Eq.symm ‹_›

theorem toNat_makeTag_mod (number : BitVec 32) (format : GPBWireFormat) :
    (makeTag number format).toNat = number.toNat * 8 % 2 ^ 32 + format.rawValue.toNat := by
  have low := rawValue_lt format
  have high : number.toNat * 8 % 2 ^ 32 = (number.toNat % 2 ^ 29) <<< 3 := by
    rw [Nat.shiftLeft_eq]
    omega
  rw [makeTag, BitVec.toNat_or, BitVec.toNat_shiftLeft, tagTypeBits, Nat.shiftLeft_eq number.toNat,
    high, ← Nat.shiftLeft_add_eq_or_of_lt (i := 3) (by omega)]

theorem toNat_makeTag {number : BitVec 32} (valid : FieldNumber number) (format : GPBWireFormat) :
    (makeTag number format).toNat = number.toNat * 8 + format.rawValue.toNat := by
  rw [toNat_makeTag_mod, Nat.mod_eq_of_lt (by have := valid.2; omega)]

theorem toNat_getTagFieldNumber (tag : BitVec 32) : (getTagFieldNumber tag).toNat = tag.toNat / 8 := by
  rw [getTagFieldNumber, BitVec.toNat_ushiftRight, Nat.shiftRight_eq_div_pow, tagTypeBits]

theorem toNat_formatBits (tag : BitVec 32) : (tag &&& tagTypeMask).toNat = tag.toNat % 8 := by
  rw [BitVec.toNat_and]
  exact Nat.and_two_pow_sub_one_eq_mod tag.toNat 3

theorem getTagFieldNumber_makeTag {number : BitVec 32} (valid : FieldNumber number)
    (format : GPBWireFormat) : getTagFieldNumber (makeTag number format) = number := by
  have low := rawValue_lt format
  apply BitVec.eq_of_toNat_eq
  rw [toNat_getTagFieldNumber, toNat_makeTag valid]
  omega

theorem formatBits_makeTag {number : BitVec 32} (valid : FieldNumber number)
    (format : GPBWireFormat) : makeTag number format &&& tagTypeMask = format.rawValue := by
  have low := rawValue_lt format
  apply BitVec.eq_of_toNat_eq
  rw [toNat_formatBits, toNat_makeTag valid]
  omega

theorem getTagWireType_makeTag {number : BitVec 32} (valid : FieldNumber number)
    (format : GPBWireFormat) : getTagWireType (makeTag number format) = some format := by
  rw [getTagWireType, formatBits_makeTag valid, ofRawValue_rawValue]

theorem isValidTag_makeTag {number : BitVec 32} (valid : FieldNumber number)
    (format : GPBWireFormat) : isValidTag (makeTag number format) = true := by
  rw [isValidTag, formatBits_makeTag valid]
  cases format <;> decide

theorem makeTag_ne_zero {number : BitVec 32} (valid : FieldNumber number) (format : GPBWireFormat) :
    makeTag number format ≠ 0 := by
  intro zero
  have value := toNat_makeTag valid format
  rw [zero] at value
  have := valid.1
  change 0 = _ at value
  omega

theorem makeTag_injective {number number' : BitVec 32} (valid : FieldNumber number)
    (valid' : FieldNumber number') {format format' : GPBWireFormat}
    (same : makeTag number format = makeTag number' format') :
    number = number' ∧ format = format' := by
  constructor
  · rw [← getTagFieldNumber_makeTag valid format, same, getTagFieldNumber_makeTag valid']
  · have formats := congrArg getTagWireType same
    rw [getTagWireType_makeTag valid, getTagWireType_makeTag valid'] at formats
    exact Option.some.inj formats

theorem makeTag_lengthDelimited_ne_zero (number : BitVec 32) :
    makeTag number .lengthDelimited ≠ 0 := by
  intro zero
  have low := toNat_makeTag_mod number .lengthDelimited
  rw [zero] at low
  change 0 = _ + 2 at low
  omega

/-- A valid tag has one of the six formats. -/
theorem getTagWireType_of_isValidTag {tag : BitVec 32} (valid : isValidTag tag = true) :
    ∃ format, getTagWireType tag = some format := by
  have small : tag &&& tagTypeMask ≤ 5 := of_decide_eq_true valid
  rw [getTagWireType]
  generalize tag &&& tagTypeMask = bits at small
  unfold ofRawValue
  split_ifs
  all_goals first | exact ⟨_, rfl⟩ | bv_omega

/-- Every tag that is read is the tag of its own number and format. -/
theorem makeTag_parts {tag : BitVec 32} {format : GPBWireFormat}
    (same : getTagWireType tag = some format) : makeTag (getTagFieldNumber tag) format = tag := by
  have bits := congrArg BitVec.toNat (rawValue_of_ofRawValue same)
  rw [toNat_formatBits] at bits
  have bound := tag.isLt
  have high : (tag.toNat / 8) <<< 3 % 2 ^ 32 = (tag.toNat / 8) <<< 3 := by
    rw [Nat.shiftLeft_eq]
    exact Nat.mod_eq_of_lt (by omega)
  apply BitVec.eq_of_toNat_eq
  rw [makeTag, BitVec.toNat_or, BitVec.toNat_shiftLeft, toNat_getTagFieldNumber, tagTypeBits, high,
    ← Nat.shiftLeft_add_eq_or_of_lt (i := 3) (by omega), Nat.shiftLeft_eq]
  omega

theorem fieldNumber_getTagFieldNumber {tag : BitVec 32} (nonzero : getTagFieldNumber tag ≠ 0) :
    FieldNumber (getTagFieldNumber tag) := by
  have bound := tag.isLt
  have value := toNat_getTagFieldNumber tag
  refine ⟨Nat.pos_of_ne_zero fun zero => nonzero (BitVec.eq_of_toNat_eq zero), ?_⟩
  rw [value]
  omega

end GPBWireFormat

def encodeZigZag {w : Nat} (n : BitVec w) : BitVec w := n <<< 1 ^^^ n.sshiftRight (w - 1)

def decodeZigZag {w : Nat} (n : BitVec w) : BitVec w := n >>> 1 ^^^ -(n &&& 1#w)

def GPBEncodeZigZag32 : BitVec 32 → BitVec 32 := encodeZigZag
def GPBEncodeZigZag64 : BitVec 64 → BitVec 64 := encodeZigZag
def GPBDecodeZigZag32 : BitVec 32 → BitVec 32 := decodeZigZag
def GPBDecodeZigZag64 : BitVec 64 → BitVec 64 := decodeZigZag

theorem encodeZigZag_nonneg {w : Nat} {n : BitVec (w + 1)} (positive : n.msb = false) :
    encodeZigZag n = n <<< 1 := by
  have high := BitVec.toNat_lt_of_msb_false positive
  have sign : n.sshiftRight w = 0 := by
    rw [BitVec.sshiftRight_eq_of_msb_false positive]
    apply BitVec.eq_of_toNat_eq
    rw [BitVec.toNat_ushiftRight, Nat.shiftRight_eq_div_pow]
    exact Nat.div_eq_of_lt (by simpa using high)
  rw [encodeZigZag, Nat.add_sub_cancel, sign]
  exact BitVec.xor_zero

theorem encodeZigZag_negative {w : Nat} {n : BitVec (w + 1)} (negative : n.msb = true) :
    encodeZigZag n = ~~~(n <<< 1) := by
  have positive : (~~~n).msb = false := by
    rw [BitVec.msb_not]
    simp [negative]
  have high := BitVec.toNat_lt_of_msb_false positive
  have sign : n.sshiftRight w = BitVec.allOnes (w + 1) := by
    rw [BitVec.sshiftRight_eq_of_msb_true negative, ← BitVec.not_zero]
    congr 1
    apply BitVec.eq_of_toNat_eq
    rw [BitVec.toNat_ushiftRight, Nat.shiftRight_eq_div_pow]
    exact Nat.div_eq_of_lt (by simpa using high)
  rw [encodeZigZag, Nat.add_sub_cancel, sign, BitVec.xor_allOnes]

/-- Numbers of either sign and small absolute value get small codes. -/
theorem toNat_encodeZigZag {w : Nat} (n : BitVec (w + 1)) :
    ((encodeZigZag n).toNat : Int) = if 0 ≤ n.toInt then 2 * n.toInt else -2 * n.toInt - 1 := by
  have bound := n.isLt
  have double : 2 ^ (w + 1) = 2 * 2 ^ w := Nat.pow_succ'
  cases sign : n.msb with
  | false =>
      have small := BitVec.toNat_lt_of_msb_false sign
      have value := BitVec.toInt_eq_toNat_of_msb sign
      have shifted : n.toNat <<< 1 % 2 ^ (w + 1) = 2 * n.toNat := by
        rw [Nat.shiftLeft_eq, Nat.mod_eq_of_lt]
        · omega
        · simp only [Nat.add_sub_cancel] at small
          omega
      rw [encodeZigZag_nonneg sign, BitVec.toNat_shiftLeft, shifted, value]
      omega
  | true =>
      have large := BitVec.le_toNat_of_msb_true sign
      have value := BitVec.toInt_eq_msb_cond n
      rw [sign, if_pos rfl] at value
      have shifted : n.toNat <<< 1 % 2 ^ (w + 1) = 2 * n.toNat - 2 ^ (w + 1) := by
        simp only [Nat.add_sub_cancel] at large
        rw [Nat.shiftLeft_eq, Nat.mod_eq_sub_mod (by omega), Nat.mod_eq_of_lt (by omega)]
        omega
      rw [encodeZigZag_negative sign, BitVec.toNat_not, BitVec.toNat_shiftLeft, shifted, value]
      simp only [Nat.add_sub_cancel] at large
      omega

theorem decodeZigZag_even {w : Nat} {m : BitVec w} (even : m.getLsbD 0 = false) :
    decodeZigZag m = m >>> 1 := by
  have bit : m &&& 1#w = 0#w := by
    ext i h
    cases i <;> simp_all [BitVec.getLsbD_eq_getElem]
  rw [decodeZigZag, bit, BitVec.neg_zero, BitVec.xor_zero]

theorem decodeZigZag_odd {w : Nat} {m : BitVec w} (odd : m.getLsbD 0 = true) :
    decodeZigZag m = ~~~(m >>> 1) := by
  have bit : m &&& 1#w = 1#w := by
    ext i h
    cases i <;> simp_all [BitVec.getLsbD_eq_getElem]
  rw [decodeZigZag, bit, BitVec.neg_one_eq_allOnes, BitVec.xor_allOnes]

theorem decodeZigZag_encodeZigZag {w : Nat} (n : BitVec (w + 1)) :
    decodeZigZag (encodeZigZag n) = n := by
  have bound := n.isLt
  have value := toNat_encodeZigZag n
  apply BitVec.eq_of_toNat_eq
  cases sign : n.msb with
  | false =>
      have nonneg := BitVec.toInt_eq_toNat_of_msb sign
      have even : (encodeZigZag n).getLsbD 0 = false := by
        rw [encodeZigZag_nonneg sign]
        simp
      rw [decodeZigZag_even even, BitVec.toNat_ushiftRight, Nat.shiftRight_eq_div_pow]
      rw [if_pos (by omega)] at value
      omega
  | true =>
      have large := BitVec.le_toNat_of_msb_true sign
      have negative := BitVec.toInt_eq_msb_cond n
      have odd : (encodeZigZag n).getLsbD 0 = true := by
        rw [encodeZigZag_negative sign]
        simp
      rw [sign, if_pos rfl] at negative
      rw [decodeZigZag_odd odd, BitVec.toNat_not, BitVec.toNat_ushiftRight,
        Nat.shiftRight_eq_div_pow]
      rw [if_neg (by omega)] at value
      omega

end LeptosMusic
