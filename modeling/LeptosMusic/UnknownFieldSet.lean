import LeptosMusic.CodedInputStream
import LeptosMusic.Library.KeyedLists

/-!
# Unknown fields

A message keeps what it does not understand as a dictionary from field numbers to the values that
were read under them, group by group. The set is written in the order of the numbers.
-/
namespace LeptosMusic
open KeyedLists (alter lookup merge Sorted)

/-- A field whose groups are still to be named. A list that was never made counts as empty, as in
`isEqual:`. -/
structure UnknownFieldOf (Group : Type) where
  number : BitVec 32
  varintList : List (BitVec 64)
  fixed32List : List (BitVec 32)
  fixed64List : List (BitVec 64)
  lengthDelimitedList : List NSData
  groupList : List Group

/-- The dictionary `fields_`, in the order of `sortedFields`. -/
inductive GPBUnknownFieldSet where
  | mk (fields : List (UnknownFieldOf GPBUnknownFieldSet))

abbrev GPBUnknownField := UnknownFieldOf GPBUnknownFieldSet

namespace UnknownFieldOf

def initWithNumber (number : BitVec 32) : GPBUnknownField :=
  { number := number, varintList := [], fixed32List := [], fixed64List := []
    lengthDelimitedList := [], groupList := [] }

def addVarint (self : GPBUnknownField) (value : BitVec 64) : GPBUnknownField :=
  { self with varintList := self.varintList ++ [value] }

def addFixed32 (self : GPBUnknownField) (value : BitVec 32) : GPBUnknownField :=
  { self with fixed32List := self.fixed32List ++ [value] }

def addFixed64 (self : GPBUnknownField) (value : BitVec 64) : GPBUnknownField :=
  { self with fixed64List := self.fixed64List ++ [value] }

def addLengthDelimited (self : GPBUnknownField) (value : NSData) : GPBUnknownField :=
  { self with lengthDelimitedList := self.lengthDelimitedList ++ [value] }

def addGroup (self : GPBUnknownField) (value : GPBUnknownFieldSet) : GPBUnknownField :=
  { self with groupList := self.groupList ++ [value] }

def mergeFromField (self other : GPBUnknownField) : GPBUnknownField :=
  { self with
    varintList := self.varintList ++ other.varintList
    fixed32List := self.fixed32List ++ other.fixed32List
    fixed64List := self.fixed64List ++ other.fixed64List
    lengthDelimitedList := self.lengthDelimitedList ++ other.lengthDelimitedList
    groupList := self.groupList ++ other.groupList }

/-- The order of the keys: `ssize_t`s made of `int32_t`s. -/
def key (field : GPBUnknownField) : Int := field.number.toInt

end UnknownFieldOf

namespace GPBUnknownFieldSet

def fields : GPBUnknownFieldSet → List GPBUnknownField
  | mk fields => fields

/-- `init` -/
def empty : GPBUnknownFieldSet := mk []

def getField (self : GPBUnknownFieldSet) (number : BitVec 32) : Option GPBUnknownField :=
  lookup UnknownFieldOf.key number.toInt self.fields

def hasField (self : GPBUnknownFieldSet) (number : BitVec 32) : Bool := (self.getField number).isSome

def countOfFields (self : GPBUnknownFieldSet) : Nat := self.fields.length

def checkNumber (number : BitVec 32) : Except ParseException Unit :=
  if number = 0 then .error .invalidArgumentException else .ok ()

def addField (self : GPBUnknownFieldSet) (field : GPBUnknownField) :
    Except ParseException GPBUnknownFieldSet := do
  checkNumber field.number
  return mk (alter UnknownFieldOf.key field.key (fun _ => field) self.fields)

/-- `add` is sent to `mutableFieldForNumber:create:`, which makes a field where there is none. -/
def addTo (number : BitVec 32) (add : GPBUnknownField → GPBUnknownField)
    (self : GPBUnknownFieldSet) : GPBUnknownFieldSet :=
  mk (alter UnknownFieldOf.key number.toInt
    (fun existing => add (existing.getD (UnknownFieldOf.initWithNumber number))) self.fields)

def mergeVarintField (self : GPBUnknownFieldSet) (number : BitVec 32) (value : BitVec 32) :
    Except ParseException GPBUnknownFieldSet := do
  checkNumber number
  return self.addTo number (·.addVarint (value.signExtend 64))

/-- An old field takes the values of the other one; otherwise a copy of it is added. -/
def combine (oldField : Option GPBUnknownField) (field : GPBUnknownField) : GPBUnknownField :=
  match oldField with
  | some oldField => oldField.mergeFromField field
  | none => field

/-- The block that `mergeUnknownFields:` applies to every field of the other set. -/
def mergeField (self : GPBUnknownFieldSet) (field : GPBUnknownField) :
    Except ParseException GPBUnknownFieldSet := do
  checkNumber field.number
  return mk (alter UnknownFieldOf.key field.key (combine · field) self.fields)

def mergeUnknownFields (self other : GPBUnknownFieldSet) : Except ParseException GPBUnknownFieldSet :=
  other.fields.foldlM mergeField self

open GPBOutputBufferState in
mutual

def writeToCodedOutputStream : GPBUnknownFieldSet → GPBOutputBufferState → WriteOutcome
  | mk fields => writeFields fields

def writeFields : List GPBUnknownField → GPBOutputBufferState → WriteOutcome
  | [] => .done
  | field :: fields => fun state => (writeToOutput field state).andThen (writeFields fields)

def writeToOutput : GPBUnknownField → GPBOutputBufferState → WriteOutcome
  | ⟨number, varintList, fixed32List, fixed64List, lengthDelimitedList, groupList⟩ => fun state =>
      (writeArray .uint64 number varintList 0 state).andThen fun state =>
        (writeArray .fixed32 number fixed32List 0 state).andThen fun state =>
          (writeArray .fixed64 number fixed64List 0 state).andThen fun state =>
            (writeArray .bytes number lengthDelimitedList 0 state).andThen
              (writeUnknownGroupArray number groupList)

def writeUnknownGroupArray (number : BitVec 32) :
    List GPBUnknownFieldSet → GPBOutputBufferState → WriteOutcome
  | [] => .done
  | group :: groups => fun state =>
      (state.writeTagWithFormat number .startGroup).andThen fun state =>
        (writeToCodedOutputStream group state).andThen fun state =>
          (state.writeTagWithFormat number .endGroup).andThen
            (writeUnknownGroupArray number groups)

end

mutual

def serializedSize : GPBUnknownFieldSet → Nat
  | mk fields => fieldsSize fields

def fieldsSize : List GPBUnknownField → Nat
  | [] => 0
  | field :: fields => fieldSize field + fieldsSize fields

def fieldSize : GPBUnknownField → Nat
  | ⟨number, varintList, fixed32List, fixed64List, lengthDelimitedList, groupList⟩ =>
      (varintList.map (computeSize .uint64 number)).sum +
        (fixed32List.map (computeSize .fixed32 number)).sum +
        (fixed64List.map (computeSize .fixed64 number)).sum +
        (lengthDelimitedList.map (computeSize .bytes number)).sum + groupsSize number groupList

def groupsSize (number : BitVec 32) : List GPBUnknownFieldSet → Nat
  | [] => 0
  | group :: groups => computeTagSize number * 2 + serializedSize group + groupsSize number groups

end

/-- `data` -/
def data (self : GPBUnknownFieldSet) : Except GPBCodedOutputStreamException NSData :=
  match self.writeToCodedOutputStream
      (GPBOutputBufferState.initWithData (dataWithLength self.serializedSize)) with
  | .done state => .ok state.bytes
  | .raised exception _ => .error exception

open GPBCodedInputStreamState

/-- `readUnknownGroup:message:` for a new set; `merge` is its `mergeFromCodedInputStream:`. -/
def readUnknownGroup (merge : GPBUnknownFieldSet → Reading GPBUnknownFieldSet)
    (fieldNumber : BitVec 32) : Reading GPBUnknownFieldSet := do
  checkRecursionLimit
  enter
  let message ← merge empty
  checkLastTagWas (GPBWireFormat.makeTag fieldNumber .endGroup)
  leave
  return message

def mergeFieldFrom (merge : GPBUnknownFieldSet → Reading GPBUnknownFieldSet) (tag : BitVec 32)
    (self : GPBUnknownFieldSet) : Reading (Bool × GPBUnknownFieldSet) :=
  let number := GPBWireFormat.getTagFieldNumber tag
  match GPBWireFormat.getTagWireType tag with
  | some .varint => return (true, self.addTo number (·.addVarint (← readRawVarint64)))
  | some .fixed64 => return (true, self.addTo number (·.addFixed64 (← readRawLittleEndian64)))
  | some .lengthDelimited => do
      match ← readRetainedBytes with
      | some data => return (true, self.addTo number (·.addLengthDelimited data))
      -- an array takes no `nil`
      | none => throw .invalidArgumentException
  | some .startGroup => do
      let unknownFieldSet ← readUnknownGroup merge number
      return (true, self.addTo number (·.addGroup unknownFieldSet))
  | some .endGroup => return (false, self)
  | some .fixed32 => return (true, self.addTo number (·.addFixed32 (← readRawLittleEndian32)))
  | none => throw .internalInconsistencyException

/-- Every round takes at least the byte of a tag, so the bytes ahead bound the rounds. -/
def mergeFromCodedInputStream : Nat → GPBUnknownFieldSet → Reading GPBUnknownFieldSet
  | 0, _ => throw .outOfFuel
  | fuel + 1, self => do
      let tag ← readTag
      if tag = 0 then return self
      else
        let (more, self) ← mergeFieldFrom (mergeFromCodedInputStream fuel) tag self
        if more then mergeFromCodedInputStream fuel self else return self

def mergeFromData (self : GPBUnknownFieldSet) (data : NSData) :
    Except ParseException GPBUnknownFieldSet :=
  let merge : Reading GPBUnknownFieldSet := do
    let self ← mergeFromCodedInputStream (data.length + 1) self
    checkLastTagWas 0
    return self
  match merge (initWithData data) with
  | .ok self _ => .ok self
  | .error exception _ => .error exception

mutual

/-- The bytes of a set. -/
def encoding : GPBUnknownFieldSet → NSData
  | mk fields => fieldsEncoding fields

def fieldsEncoding : List GPBUnknownField → NSData
  | [] => []
  | field :: fields => fieldEncoding field ++ fieldsEncoding fields

def fieldEncoding : GPBUnknownField → NSData
  | ⟨number, varintList, fixed32List, fixed64List, lengthDelimitedList, groupList⟩ =>
      PlainType.uint64.unpacked number varintList ++
        (PlainType.fixed32.unpacked number fixed32List ++
          (PlainType.fixed64.unpacked number fixed64List ++
            (PlainType.bytes.unpacked number lengthDelimitedList ++ groupsEncoding number groupList)))

def groupsEncoding (number : BitVec 32) : List GPBUnknownFieldSet → NSData
  | [] => []
  | group :: groups =>
      tagBytes number .startGroup ++
        (encoding group ++ (tagBytes number .endGroup ++ groupsEncoding number groups))

end

section
open GPBOutputBufferState

mutual

theorem emits_writeToCodedOutputStream : ∀ self : GPBUnknownFieldSet,
    Emits self.writeToCodedOutputStream self.encoding
  | mk fields => emits_writeFields fields

theorem emits_writeFields : ∀ fields, Emits (writeFields fields) (fieldsEncoding fields)
  | [] => emits_nothing
  | field :: fields => (emits_writeToOutput field).andThen (emits_writeFields fields)

theorem emits_writeToOutput : ∀ field, Emits (writeToOutput field) (fieldEncoding field)
  | ⟨number, varintList, fixed32List, fixed64List, lengthDelimitedList, groupList⟩ =>
      (emits_writeArray_unpacked .uint64 number varintList).andThen <|
        (emits_writeArray_unpacked .fixed32 number fixed32List).andThen <|
          (emits_writeArray_unpacked .fixed64 number fixed64List).andThen <|
            (emits_writeArray_unpacked .bytes number lengthDelimitedList).andThen
              (emits_writeUnknownGroupArray number groupList)

theorem emits_writeUnknownGroupArray (number : BitVec 32) : ∀ groups,
    Emits (writeUnknownGroupArray number groups) (groupsEncoding number groups)
  | [] => emits_nothing
  | group :: groups =>
      (emits_writeTagWithFormat number .startGroup).andThen <|
        (emits_writeToCodedOutputStream group).andThen <|
          (emits_writeTagWithFormat number .endGroup).andThen
            (emits_writeUnknownGroupArray number groups)

end

end

theorem sum_computeSize (type : PlainType) (number : BitVec 32) (values : List type.Value) :
    (values.map (computeSize type number)).sum = (type.unpacked number values).length := by
  induction values with
  | nil => rfl
  | cons value values ih =>
      rw [List.map_cons, List.sum_cons, ih, computeSize_eq, PlainType.unpacked, PlainType.unpacked,
        List.flatMap_cons]
      exact List.length_append.symm

mutual

theorem serializedSize_eq : ∀ self : GPBUnknownFieldSet, self.serializedSize = self.encoding.length
  | mk fields => fieldsSize_eq fields

theorem fieldsSize_eq : ∀ fields, fieldsSize fields = (fieldsEncoding fields).length
  | [] => rfl
  | field :: fields => by
      rw [fieldsSize, fieldsEncoding, List.length_append, fieldSize_eq field, fieldsSize_eq fields]

theorem fieldSize_eq : ∀ field, fieldSize field = (fieldEncoding field).length
  | ⟨number, varintList, fixed32List, fixed64List, lengthDelimitedList, groupList⟩ => by
      rw [fieldSize, fieldEncoding, sum_computeSize .uint64, sum_computeSize .fixed32,
        sum_computeSize .fixed64, sum_computeSize .bytes, groupsSize_eq number groupList]
      simp only [List.length_append, Nat.add_assoc]

theorem groupsSize_eq (number : BitVec 32) : ∀ groups,
    groupsSize number groups = (groupsEncoding number groups).length
  | [] => rfl
  | group :: groups => by
      rw [groupsSize, groupsEncoding, serializedSize_eq group, groupsSize_eq number groups]
      have first := computeTagSize_eq number .startGroup
      have last := computeTagSize_eq number .endGroup
      simp only [List.length_append]
      omega

end

/-- The size is right, so the data is filled exactly. -/
theorem data_eq (self : GPBUnknownFieldSet) : self.data = .ok self.encoding := by
  obtain ⟨t, written, bytes⟩ :=
    (emits_writeToCodedOutputStream self).exact self.serializedSize_eq
  rw [data, written]
  exact congrArg Except.ok bytes

end GPBUnknownFieldSet
end LeptosMusic
