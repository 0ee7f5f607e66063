import LeptosMusic.UnknownFieldSet

/-!
# Messages

A class of messages is a descriptor. A message is what its storage holds for the fields that are
set, and its unknown fields; any other field reads as its default. Extensions, maps and message sets
are left out.
-/
namespace LeptosMusic
open Runs (run)
open KeyedLists (alter lookup Sorted)

inductive GPBFileSyntax where
  | proto2
  | proto3
  deriving DecidableEq, Repr

/-- A message or a group comes with its class. -/
inductive GPBDataType (Class : Type) where
  | plain (type : PlainType)
  | message (msgClass : Class)
  | group (msgClass : Class)

namespace GPBDataType

variable {Class : Type}

/-- `GPBWireFormatForType` -/
def wireFormat (type : GPBDataType Class) (isPacked : Bool) : GPBWireFormat :=
  if isPacked then .lengthDelimited
  else match type with
    | plain type => type.wireFormat
    | message _ => .lengthDelimited
    | group _ => .startGroup

/-- `GPBDataTypeIsObject` -/
def isObject : GPBDataType Class → Bool
  | plain type => !type.packable
  | message _ => true
  | group _ => true

/-- A message or a group of this class. -/
inductive IsMessage (msgClass : Class) : GPBDataType Class → Prop where
  | message : IsMessage msgClass (.message msgClass)
  | group : IsMessage msgClass (.group msgClass)

end GPBDataType

/-- `repeated` tells `GPBFieldTypeRepeated` from `GPBFieldTypeSingle`. -/
structure GPBFieldDescriptor (Class : Type) where
  number : BitVec 32
  dataType : GPBDataType Class
  repeated : Bool
  isPackable : Bool
  isValidEnumValue : BitVec 32 → Bool
  containingOneof : Option Nat

namespace GPBFieldDescriptor

variable {Class : Type}

def tag (self : GPBFieldDescriptor Class) : BitVec 32 :=
  GPBWireFormat.makeTag self.number (self.dataType.wireFormat self.isPackable)

def alternateTag (self : GPBFieldDescriptor Class) : BitVec 32 :=
  GPBWireFormat.makeTag self.number (self.dataType.wireFormat !self.isPackable)

/-- What the compiler makes of a field. -/
structure Valid (field : GPBFieldDescriptor Class) : Prop where
  number : GPBWireFormat.FieldNumber field.number
  packable : field.isPackable = true → field.repeated = true ∧
    ∃ type : PlainType, field.dataType = .plain type ∧ type.packable = true
  oneof : field.containingOneof.isSome = true → field.repeated = false

end GPBFieldDescriptor

/-- The compiler sorts the fields by their numbers. -/
structure GPBDescriptor (Class : Type) where
  fields : List (GPBFieldDescriptor Class)
  fileSyntax : GPBFileSyntax
  sorted : fields.Pairwise fun d e => d.number.toNat < e.number.toNat
  valid : ∀ d ∈ fields, d.Valid

/-- What is stored for a field that is set. An array that is empty counts as one that was never
made. -/
inductive StorageOf (Message : Type) where
  | value (type : PlainType) (value : type.Value)
  | array (type : PlainType) (values : List type.Value)
  | message (message : Message)
  | messages (messages : List Message)

structure FieldOf (Class Message : Type) where
  descriptor : GPBFieldDescriptor Class
  storage : StorageOf Message

/-- The fields that are set, in the order of their numbers. -/
inductive GPBMessage (Class : Type) where
  | mk (fields : List (FieldOf Class (GPBMessage Class))) (unknownFields : GPBUnknownFieldSet)

namespace StorageOf

variable {Message : Type}

def valuesOf (type : PlainType) : StorageOf Message → List type.Value
  | array type' values => if same : type' = type then same ▸ values else []
  | _ => []

def messagesOf : StorageOf Message → List Message
  | messages elements => elements
  | _ => []

@[simp] theorem valuesOf_array (type : PlainType) (values : List type.Value) :
    (array type values : StorageOf Message).valuesOf type = values := dif_pos rfl

@[simp] theorem messagesOf_messages (elements : List Message) :
    (messages elements).messagesOf = elements := rfl

end StorageOf

namespace PlainType

/-- `value == 0`, or `[value length] == 0`. Both zeros of a floating-point type compare equal. -/
def isZero : (type : PlainType) → type.Value → Bool
  | bool, value => !value
  | fixed32, value => BitVec.toNat value == 0
  | sfixed32, value => BitVec.toNat value == 0
  | float, value => BitVec.toNat value % 2 ^ 31 == 0
  | fixed64, value => BitVec.toNat value == 0
  | sfixed64, value => BitVec.toNat value == 0
  | double, value => BitVec.toNat value % 2 ^ 63 == 0
  | int32, value => BitVec.toNat value == 0
  | int64, value => BitVec.toNat value == 0
  | sint32, value => BitVec.toNat value == 0
  | sint64, value => BitVec.toNat value == 0
  | uint32, value => BitVec.toNat value == 0
  | uint64, value => BitVec.toNat value == 0
  | bytes, value => List.length value == 0
  | string, value => List.length value == 0
  | enum, value => BitVec.toNat value == 0

theorem wireFormat_ne_lengthDelimited (type : PlainType) (packable : type.packable = true) :
    type.wireFormat ≠ .lengthDelimited := by
  revert packable
  cases type <;> decide

end PlainType

namespace GPBMessage

variable {Class : Type}

def fields : GPBMessage Class → List (FieldOf Class (GPBMessage Class))
  | mk fields _ => fields

def unknownFields : GPBMessage Class → GPBUnknownFieldSet
  | mk _ unknownFields => unknownFields

def init : GPBMessage Class := mk [] .empty

def setUnknownFields (self : GPBMessage Class) (unknownFields : GPBUnknownFieldSet) :
    GPBMessage Class := mk self.fields unknownFields

/-- The order of the fields. -/
def key (field : FieldOf Class (GPBMessage Class)) : Nat := field.descriptor.number.toNat

/-- `nil` where the field is not set. -/
def getStorage (self : GPBMessage Class) (field : GPBFieldDescriptor Class) :
    Option (StorageOf (GPBMessage Class)) :=
  (lookup key field.number.toNat self.fields).map (·.storage)

def setStorage (self : GPBMessage Class) (field : GPBFieldDescriptor Class)
    (storage : StorageOf (GPBMessage Class)) : GPBMessage Class :=
  mk (alter key field.number.toNat (fun _ => ⟨field, storage⟩) self.fields) self.unknownFields

def clearField (self : GPBMessage Class) (field : GPBFieldDescriptor Class) : GPBMessage Class :=
  mk (self.fields.filter fun other => key other != field.number.toNat) self.unknownFields

/-- `GPBMaybeClearOneof`: at most one field of a oneof is set, so clearing the one that is set
clears all others. -/
def maybeClearOneof (self : GPBMessage Class) (field : GPBFieldDescriptor Class) : GPBMessage Class :=
  match field.containingOneof with
  | none => self
  | some oneof => mk (self.fields.filter fun other =>
      other.descriptor.containingOneof != some oneof || key other == field.number.toNat)
      self.unknownFields

/-- proto2: any value counts as having been set; proto3, it has to be a non zero value or be in a
oneof. -/
def countsAsSet (fileSyntax : GPBFileSyntax) (field : GPBFieldDescriptor Class) (type : PlainType)
    (value : type.Value) : Bool :=
  fileSyntax == .proto2 || !type.isZero value || field.containingOneof.isSome

/-- `GPBSet…IvarWithFieldInternal` of the type. -/
def setValue (fileSyntax : GPBFileSyntax) (self : GPBMessage Class)
    (field : GPBFieldDescriptor Class) (type : PlainType) (value : Option type.Value) :
    GPBMessage Class :=
  let self := self.maybeClearOneof field
  match value with
  | none => self.clearField field
  | some value =>
      if countsAsSet fileSyntax field type value then self.setStorage field (.value type value)
      else self.clearField field

/-- `GPBSetRetainedObjectIvarWithFieldInternal` for a message or a group. -/
def setMessage (self : GPBMessage Class) (field : GPBFieldDescriptor Class)
    (message : GPBMessage Class) : GPBMessage Class :=
  (self.maybeClearOneof field).setStorage field (.message message)

/-- The array is made where there is none. -/
def addValues (self : GPBMessage Class) (field : GPBFieldDescriptor Class) (type : PlainType)
    (values : List type.Value) : GPBMessage Class :=
  self.setStorage field
    (.array type (((self.getStorage field).elim [] fun storage => storage.valuesOf type) ++ values))

def addMessages (self : GPBMessage Class) (field : GPBFieldDescriptor Class)
    (messages : List (GPBMessage Class)) : GPBMessage Class :=
  self.setStorage field
    (.messages (((self.getStorage field).elim [] fun storage => storage.messagesOf) ++ messages))

mutual

/-- `mergeFrom:`, for two messages of this class. -/
def mergeFrom (classes : Class → GPBDescriptor Class) :
    Class → GPBMessage Class → GPBMessage Class → Except ParseException (GPBMessage Class)
  | messageClass, self, mk fields unknownFields => do
      let self ← mergeFields classes messageClass self fields
      return self.setUnknownFields (← self.unknownFields.mergeUnknownFields unknownFields)

def mergeFields (classes : Class → GPBDescriptor Class) :
    Class → GPBMessage Class → List (FieldOf Class (GPBMessage Class)) →
      Except ParseException (GPBMessage Class)
  | _, self, [] => return self
  | messageClass, self, field :: fields => do
      mergeFields classes messageClass (← mergeField classes messageClass self field) fields

/-- The body of the loop over the fields of the other message. -/
def mergeField (classes : Class → GPBDescriptor Class) :
    Class → GPBMessage Class → FieldOf Class (GPBMessage Class) →
      Except ParseException (GPBMessage Class)
  | messageClass, self, ⟨field, .value type value⟩ =>
      return self.setValue (classes messageClass).fileSyntax field type (some value)
  | _, self, ⟨field, .array type values⟩ => return self.addValues field type values
  | _, self, ⟨field, .message message⟩ =>
      match self.getStorage field, field.dataType with
      | some (.message existing), .message msgClass => do
          return self.setStorage field (.message (← mergeFrom classes msgClass existing message))
      | some (.message existing), .group msgClass => do
          return self.setStorage field (.message (← mergeFrom classes msgClass existing message))
      | _, _ => return self.setMessage field message
  | _, self, ⟨field, .messages messages⟩ => return self.addMessages field messages

end

/-- `GPBComputeMessageSizeNoTag` or `GPBComputeGroupSizeNoTag` -/
def computeMessageSizeNoTag (field : GPBFieldDescriptor Class) (serializedSize : Nat) : Nat :=
  match field.dataType with
  | .group _ => serializedSize
  | _ => computeRawVarint32SizeForInteger serializedSize + serializedSize

/-- Groups have both a start and an end tag. -/
def messageTagSize (field : GPBFieldDescriptor Class) : Nat :=
  match field.dataType with
  | .group _ => computeTagSize field.number * 2
  | _ => computeTagSize field.number

def computeSizeTSizeAsInt32NoTag (value : Nat) : Nat := computeInt32SizeNoTag (BitVec.ofNat 32 value)

mutual

def serializedSize : GPBMessage Class → Nat
  | mk fields unknownFields => fieldsSize fields + unknownFields.serializedSize

def fieldsSize : List (FieldOf Class (GPBMessage Class)) → Nat
  | [] => 0
  | field :: fields => fieldSize field + fieldsSize fields

def fieldSize : FieldOf Class (GPBMessage Class) → Nat
  | ⟨field, .value type value⟩ => computeSize type field.number value
  | ⟨field, .array type values⟩ =>
      if values.length = 0 then 0
      else
        let dataSize := (values.map (computeSizeNoTag type)).sum
        let tagSize := computeTagSize field.number
        if field.isPackable then dataSize + tagSize + computeSizeTSizeAsInt32NoTag dataSize
        else dataSize + values.length * tagSize
  | ⟨field, .message message⟩ =>
      messageTagSize field + computeMessageSizeNoTag field (serializedSize message)
  | ⟨field, .messages messages⟩ =>
      messagesSize field messages + messages.length * messageTagSize field

/-- The `dataSize` of an array of messages or groups. -/
def messagesSize (field : GPBFieldDescriptor Class) : List (GPBMessage Class) → Nat
  | [] => 0
  | message :: messages =>
      computeMessageSizeNoTag field (serializedSize message) + messagesSize field messages

end

/-- `writeMessage:value:` or `writeGroup:value:`, for a message of this size that `write` writes. -/
def writeMessage (field : GPBFieldDescriptor Class) (serializedSize : Nat)
    (write : GPBOutputBufferState → WriteOutcome) (state : GPBOutputBufferState) : WriteOutcome :=
  match field.dataType with
  | .group _ =>
      (state.writeTagWithFormat field.number .startGroup).andThen fun state =>
        (write state).andThen fun state => state.writeTagWithFormat field.number .endGroup
  | _ =>
      (state.writeTagWithFormat field.number .lengthDelimited).andThen fun state =>
        (state.writeRawVarint (BitVec.ofNat 32 serializedSize)).andThen write

mutual

def writeToCodedOutputStream : GPBMessage Class → GPBOutputBufferState → WriteOutcome
  | mk fields unknownFields => fun state =>
      (writeFields fields state).andThen unknownFields.writeToCodedOutputStream

def writeFields : List (FieldOf Class (GPBMessage Class)) → GPBOutputBufferState → WriteOutcome
  | [] => .done
  | field :: fields => fun state => (writeField field state).andThen (writeFields fields)

def writeField : FieldOf Class (GPBMessage Class) → GPBOutputBufferState → WriteOutcome
  | ⟨field, .value type value⟩ => GPBOutputBufferState.writeValue type field.number value
  | ⟨field, .array type values⟩ =>
      writeArray type field.number values (if field.isPackable then field.tag else 0)
  | ⟨field, .message message⟩ =>
      writeMessage field (serializedSize message) (writeToCodedOutputStream message)
  | ⟨field, .messages messages⟩ => writeMessageArray field messages

def writeMessageArray (field : GPBFieldDescriptor Class) :
    List (GPBMessage Class) → GPBOutputBufferState → WriteOutcome
  | [] => .done
  | message :: messages => fun state =>
      (writeMessage field (serializedSize message) (writeToCodedOutputStream message) state).andThen
        (writeMessageArray field messages)

end

/-- `nil` when writing raises. -/
def data (self : GPBMessage Class) : Option NSData :=
  match self.writeToCodedOutputStream
      (GPBOutputBufferState.initWithData (dataWithLength self.serializedSize)) with
  | .done state => some state.bytes
  | .raised _ _ => none

end GPBMessage
end LeptosMusic
