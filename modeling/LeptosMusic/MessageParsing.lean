import LeptosMusic.MessageEncoding
import LeptosMusic.UnknownFieldParsing
import LeptosMusic.Library.CircularSearch

/-!
# Parsing messages

Well formed messages have their fields in the order of the descriptor, so the search for the field
of a tag goes on where the last one ended.
-/
namespace LeptosMusic
open KeyedLists (Sorted)
open GPBCodedInputStreamState
open CircularSearch (search)

namespace GPBMessage

variable {Class : Type}

/-- `readMessage:extensionRegistry:`, where `merge` merges into the message. -/
def readMessage (merge : Reading (GPBMessage Class)) : Reading (GPBMessage Class) := do
  checkRecursionLimit
  let length ← readRawVarint32
  let oldLimit ← pushLimit (sizeT length)
  enter
  let message ← merge
  checkLastTagWas 0
  leave
  popLimit oldLimit
  return message

/-- `readGroup:message:extensionRegistry:` -/
def readGroup (fieldNumber : BitVec 32) (merge : Reading (GPBMessage Class)) :
    Reading (GPBMessage Class) := do
  checkRecursionLimit
  enter
  let message ← merge
  checkLastTagWas (GPBWireFormat.makeTag fieldNumber .endGroup)
  leave
  return message

/-- `GPBHasPreservingUnknownEnumSemantics(syntax) || [field isValidEnumValue:value]` -/
def acceptsEnumValue (fileSyntax : GPBFileSyntax) (field : GPBFieldDescriptor Class)
    (value : BitVec 32) : Bool := fileSyntax == .proto3 || field.isValidEnumValue value

/-- A value that is none of the enumeration goes to the unknown fields. -/
def keepEnumValue (self : GPBMessage Class) (field : GPBFieldDescriptor Class) (value : BitVec 32) :
    Reading (GPBMessage Class) :=
  match self.unknownFields.mergeVarintField field.number value with
  | .ok unknownFields => return self.setUnknownFields unknownFields
  | .error exception => throw exception

/-- `MergeSingleFieldFromCodedInputStream`, where `merge` is the parsing of a message of a class. -/
def mergeSingleField (merge : Class → GPBMessage Class → Reading (GPBMessage Class))
    (fileSyntax : GPBFileSyntax) (field : GPBFieldDescriptor Class) (self : GPBMessage Class) :
    Reading (GPBMessage Class) :=
  match field.dataType with
  | .plain .enum => do
      let value ← readRawVarint32
      if acceptsEnumValue fileSyntax field value then
        return self.setValue fileSyntax field .enum (some value)
      else self.keepEnumValue field value
  | .plain type => do return self.setValue fileSyntax field type (← readNoTag type)
  | .message msgClass =>
      match self.getStorage field with
      | some (.message message) => do
          return self.setStorage field (.message (← readMessage (merge msgClass message)))
      | _ => do return self.setMessage field (← readMessage (merge msgClass init))
  | .group msgClass =>
      match self.getStorage field with
      | some (.message message) => do
          return self.setStorage field (.message (← readGroup field.number (merge msgClass message)))
      | _ => do return self.setMessage field (← readGroup field.number (merge msgClass init))

/-- One value of an array; an array of objects takes no `nil`. -/
def addReadValue (fileSyntax : GPBFileSyntax) (field : GPBFieldDescriptor Class) :
    PlainType → GPBMessage Class → Reading (GPBMessage Class)
  | .enum, self => do
      let value ← readRawVarint32
      if acceptsEnumValue fileSyntax field value then return self.addValues field .enum [value]
      else self.keepEnumValue field value
  | type, self => do
      match ← readNoTag type with
      | some value => return self.addValues field type [value]
      | none => throw .invalidArgumentException

/-- The loop of `MergeRepeatedPackedFieldFromCodedInputStream`. -/
def readPackedValues (fileSyntax : GPBFileSyntax) (field : GPBFieldDescriptor Class) :
    Nat → GPBMessage Class → Reading (GPBMessage Class)
  | 0, _ => throw .outOfFuel
  | fuel + 1, self => do
      if (← bytesUntilLimit) > 0 then
        match field.dataType with
        | .plain type =>
            if type.packable then
              readPackedValues fileSyntax field fuel (← addReadValue fileSyntax field type self)
            else throw .internalInconsistencyException
        | _ => throw .internalInconsistencyException
      else return self

/-- `MergeRepeatedPackedFieldFromCodedInputStream` -/
def mergePackedField (fuel : Nat) (fileSyntax : GPBFileSyntax) (field : GPBFieldDescriptor Class)
    (self : GPBMessage Class) : Reading (GPBMessage Class) := do
  let length ← readRawVarint32
  let limit ← pushLimit (sizeT length)
  let self ← readPackedValues fileSyntax field fuel self
  popLimit limit
  return self

/-- `MergeRepeatedNotPackedFieldFromCodedInputStream` -/
def mergeNotPackedField (merge : Class → GPBMessage Class → Reading (GPBMessage Class))
    (fileSyntax : GPBFileSyntax) (field : GPBFieldDescriptor Class) (self : GPBMessage Class) :
    Reading (GPBMessage Class) :=
  match field.dataType with
  | .plain type => addReadValue fileSyntax field type self
  | .message msgClass => do return self.addMessages field [← readMessage (merge msgClass init)]
  | .group msgClass => do
      return self.addMessages field [← readGroup field.number (merge msgClass init)]

/-- The three of them; a repeated field comes packed or not. -/
def mergeKnownField (merge : Class → GPBMessage Class → Reading (GPBMessage Class)) (fuel : Nat)
    (fileSyntax : GPBFileSyntax) (field : GPBFieldDescriptor Class) (isPacked : Bool)
    (self : GPBMessage Class) : Reading (GPBMessage Class) :=
  if !field.repeated then mergeSingleField merge fileSyntax field self
  else if isPacked then mergePackedField fuel fileSyntax field self
  else mergeNotPackedField merge fileSyntax field self

def hasTag (tag : BitVec 32) (field : GPBFieldDescriptor Class) : Bool := field.tag == tag

/-- Primitive, repeated types can be packed or unpacked on the wire, and are parsed either way. -/
def hasAlternateTag (tag : BitVec 32) (field : GPBFieldDescriptor Class) : Bool :=
  field.repeated && !field.dataType.isObject && field.alternateTag == tag

/-- Well formed messages have a single field or a packed one only once, so the next search starts
behind it. -/
def nextIndex (field : GPBFieldDescriptor Class) (isPacked : Bool) (startingIndex : Nat) : Nat :=
  if !field.repeated || isPacked then startingIndex + 1 else startingIndex

/-- The field of a tag, and whether it comes packed. A tag in the preferred form is looked for
first. -/
def fieldForTag (descriptor : GPBDescriptor Class) (tag : BitVec 32) (startingIndex : Nat) :
    Nat × Option (GPBFieldDescriptor Class × Bool) :=
  let numFields := descriptor.fields.length
  match search (hasTag tag) descriptor.fields numFields startingIndex with
  | (startingIndex, some field) =>
      (nextIndex field field.isPackable startingIndex, some (field, field.isPackable))
  | (startingIndex, none) =>
      match search (hasAlternateTag tag) descriptor.fields numFields startingIndex with
      | (startingIndex, some field) =>
          (nextIndex field (!field.isPackable) startingIndex, some (field, !field.isPackable))
      | (startingIndex, none) => (startingIndex, none)

/-- `parseUnknownField:extensionRegistry:tag:` without a registry. -/
def parseUnknownField (fuel : Nat) (tag : BitVec 32) (self : GPBMessage Class) :
    Reading (Bool × GPBMessage Class) :=
  if GPBWireFormat.getTagWireType tag = some .endGroup then return (false, self)
  else do
    let (more, unknownFields) ← GPBUnknownFieldSet.mergeFieldFrom
      (GPBUnknownFieldSet.mergeFromCodedInputStream fuel) tag self.unknownFields
    return (more, self.setUnknownFields unknownFields)

/-- `mergeFromCodedInputStream:extensionRegistry:` of a class. -/
def mergeFromCodedInputStream (classes : Class → GPBDescriptor Class) :
    Nat → Class → Nat → GPBMessage Class → Reading (GPBMessage Class)
  | 0, _, _, _ => throw .outOfFuel
  | fuel + 1, messageClass, startingIndex, self => do
      let tag ← readTag
      if tag = 0 then return self
      else
        match fieldForTag (classes messageClass) tag startingIndex with
        | (startingIndex, some (field, isPacked)) =>
            let self ← mergeKnownField
              (fun msgClass message => mergeFromCodedInputStream classes fuel msgClass 0 message)
              fuel (classes messageClass).fileSyntax field isPacked self
            mergeFromCodedInputStream classes fuel messageClass startingIndex self
        | (startingIndex, none) =>
            let (more, self) ← parseUnknownField fuel tag self
            if more then mergeFromCodedInputStream classes fuel messageClass startingIndex self
            else return self

def mergeFromData (classes : Class → GPBDescriptor Class) (messageClass : Class)
    (self : GPBMessage Class) (data : NSData) : Except ParseException (GPBMessage Class) :=
  let merge : Reading (GPBMessage Class) := do
    let self ← mergeFromCodedInputStream classes (data.length + 1) messageClass 0 self
    checkLastTagWas 0
    return self
  match merge (initWithData data) with
  | .ok self _ => .ok self
  | .error exception _ => .error exception

/-- The field of a tag, looked for from the first one on. -/
def fieldOfTag (descriptor : GPBDescriptor Class) (tag : BitVec 32) :
    Option (GPBFieldDescriptor Class × Bool) :=
  match descriptor.fields.find? (hasTag tag) with
  | some field => some (field, field.isPackable)
  | none => (descriptor.fields.find? (hasAlternateTag tag)).map fun field =>
      (field, !field.isPackable)

variable {descriptor : GPBDescriptor Class} {field other : GPBFieldDescriptor Class}

/-- The fields of a class have different numbers. -/
theorem eq_of_number (member : field ∈ descriptor.fields) (member' : other ∈ descriptor.fields)
    (same : field.number = other.number) : field = other := by
  have sorted : Sorted (fun field : GPBFieldDescriptor Class => field.number.toNat)
    descriptor.fields := descriptor.sorted
  have first := (KeyedLists.lookup_eq_some_iff sorted.distinct).mpr ⟨member, rfl⟩
  have second := (KeyedLists.lookup_eq_some_iff sorted.distinct).mpr ⟨member', rfl⟩
  rw [same, second] at first
  exact (Option.some.inj first).symm

theorem eq_of_makeTag (member : field ∈ descriptor.fields) (member' : other ∈ descriptor.fields)
    {format format' : GPBWireFormat}
    (same : GPBWireFormat.makeTag field.number format = GPBWireFormat.makeTag other.number format') :
    field = other ∧ format = format' := by
  obtain ⟨number, format⟩ := GPBWireFormat.makeTag_injective (descriptor.valid field member).number
    (descriptor.valid other member').number same
  exact ⟨eq_of_number member member' number, format⟩

theorem hasAlternateTag_iff {tag : BitVec 32} : hasAlternateTag tag field = true ↔
    field.repeated = true ∧ field.dataType.isObject = false ∧ field.alternateTag = tag := by
  simp only [hasAlternateTag, Bool.and_eq_true, Bool.not_eq_true', beq_iff_eq, and_assoc]

theorem search_hasTag (tag : BitVec 32) (startingIndex : Nat) :
    (search (hasTag tag) descriptor.fields descriptor.fields.length startingIndex).2 =
      descriptor.fields.find? (hasTag tag) := by
  apply CircularSearch.search_round_unique
  intro field member other member' found found'
  exact (eq_of_makeTag member member' ((beq_iff_eq.mp found).trans (beq_iff_eq.mp found').symm)).1

theorem search_hasAlternateTag (tag : BitVec 32) (startingIndex : Nat) :
    (search (hasAlternateTag tag) descriptor.fields descriptor.fields.length startingIndex).2 =
      descriptor.fields.find? (hasAlternateTag tag) := by
  apply CircularSearch.search_round_unique
  intro field member other member' found found'
  obtain ⟨_, _, found⟩ := hasAlternateTag_iff.mp found
  obtain ⟨_, _, found'⟩ := hasAlternateTag_iff.mp found'
  exact (eq_of_makeTag member member' (found.trans found'.symm)).1

theorem fieldForTag_eq (descriptor : GPBDescriptor Class) (tag : BitVec 32) (startingIndex : Nat) :
    (fieldForTag descriptor tag startingIndex).2 = fieldOfTag descriptor tag := by
  have first := @search_hasTag _ descriptor tag startingIndex
  rw [fieldForTag, fieldOfTag, ← first]
  rcases search (hasTag tag) descriptor.fields descriptor.fields.length startingIndex with
    ⟨index, _ | field⟩
  · have second := @search_hasAlternateTag _ descriptor tag index
    dsimp only
    rw [← second]
    rcases search (hasAlternateTag tag) descriptor.fields descriptor.fields.length index with
      ⟨index', _ | field⟩ <;> rfl
  · rfl

/-- The loop with a search from the first field on. -/
def mergePlainly (classes : Class → GPBDescriptor Class) :
    Nat → Class → GPBMessage Class → Reading (GPBMessage Class)
  | 0, _, _ => throw .outOfFuel
  | fuel + 1, messageClass, self => do
      let tag ← readTag
      if tag = 0 then return self
      else
        match fieldOfTag (classes messageClass) tag with
        | some (field, isPacked) =>
            let self ← mergeKnownField (mergePlainly classes fuel) fuel
              (classes messageClass).fileSyntax field isPacked self
            mergePlainly classes fuel messageClass self
        | none =>
            let (more, self) ← parseUnknownField fuel tag self
            if more then mergePlainly classes fuel messageClass self
            else return self

/-- Wherever the search starts, the loop does the same. -/
theorem mergeFromCodedInputStream_plainly (classes : Class → GPBDescriptor Class) (fuel : Nat)
    (messageClass : Class) (startingIndex : Nat) (self : GPBMessage Class) :
    mergeFromCodedInputStream classes fuel messageClass startingIndex self =
      mergePlainly classes fuel messageClass self := by
  induction fuel generalizing messageClass startingIndex self with
  | zero => rfl
  | succ fuel ih =>
      have inner : (fun msgClass message =>
          mergeFromCodedInputStream classes fuel msgClass 0 message) = mergePlainly classes fuel := by
        funext msgClass message
        exact ih msgClass 0 message
      rw [mergeFromCodedInputStream, mergePlainly]
      congr 1
      funext tag
      have found := fieldForTag_eq (classes messageClass) tag startingIndex
      split_ifs with ended
      · rfl
      · rw [← found, inner]
        rcases fieldForTag (classes messageClass) tag startingIndex with
          ⟨index, _ | ⟨field, isPacked⟩⟩
        · simp only [ih]
        · simp only [ih]

theorem find_eq_some {α : Type} {isIt : α → Bool} {xs : List α} {x : α} (member : x ∈ xs)
    (found : isIt x = true) (unique : ∀ y ∈ xs, isIt y = true → y = x) :
    xs.find? isIt = some x := by
  cases outcome : xs.find? isIt with
  | none => exact absurd found (List.find?_eq_none.mp outcome x member)
  | some y =>
      exact congrArg some (unique y (List.mem_of_find?_eq_some outcome) (List.find?_some outcome))

theorem fieldOfTag_tag (member : field ∈ descriptor.fields) :
    fieldOfTag descriptor field.tag = some (field, field.isPackable) := by
  have found : descriptor.fields.find? (hasTag field.tag) = some field := by
    apply find_eq_some member (beq_self_eq_true field.tag)
    intro other member' same
    exact (eq_of_makeTag member' member (beq_iff_eq.mp same)).1
  rw [fieldOfTag, found]

/-- A repeated field of a packable type is found by either of its tags. -/
theorem fieldOfTag_repeated (member : field ∈ descriptor.fields) (repeated : field.repeated = true)
    {type : PlainType} (plain : field.dataType = .plain type) (packable : type.packable = true)
    (isPacked : Bool) :
    fieldOfTag descriptor (GPBWireFormat.makeTag field.number (field.dataType.wireFormat isPacked)) =
      some (field, isPacked) := by
  by_cases preferred : isPacked = field.isPackable
  · rw [preferred]
    exact fieldOfTag_tag member
  · obtain rfl : isPacked = !field.isPackable := by
      cases isPacked <;> cases isPackable : field.isPackable <;> simp_all
    have isObject : field.dataType.isObject = false := by
      rw [plain, GPBDataType.isObject, packable]
      rfl
    have differ : field.dataType.wireFormat (!field.isPackable) ≠
        field.dataType.wireFormat field.isPackable := by
      have formats := type.wireFormat_ne_lengthDelimited packable
      rw [plain]
      cases field.isPackable with
      | false => exact formats.symm
      | true => exact formats
    have absent : descriptor.fields.find? (hasTag field.alternateTag) = none := by
      refine List.find?_eq_none.mpr fun other member' same => ?_
      obtain ⟨rfl, formats⟩ := eq_of_makeTag member' member (beq_iff_eq.mp same)
      exact differ formats.symm
    have found : descriptor.fields.find? (hasAlternateTag field.alternateTag) = some field := by
      apply find_eq_some member (hasAlternateTag_iff.mpr ⟨repeated, isObject, rfl⟩)
      intro other member' same
      exact (eq_of_makeTag member' member (hasAlternateTag_iff.mp same).2.2).1
    change fieldOfTag descriptor field.alternateTag = _
    rw [fieldOfTag, absent, found]
    rfl

/-- What a tag must be for a field to be found. -/
structure Found (descriptor : GPBDescriptor Class) (tag : BitVec 32)
    (field : GPBFieldDescriptor Class) (isPacked : Bool) : Prop where
  member : field ∈ descriptor.fields
  tag : tag = GPBWireFormat.makeTag field.number (field.dataType.wireFormat isPacked)
  packed : isPacked = true → field.repeated = true ∧
    ∃ type : PlainType, field.dataType = .plain type ∧ type.packable = true

theorem found_of_fieldOfTag {tag : BitVec 32} {isPacked : Bool}
    (found : fieldOfTag descriptor tag = some (field, isPacked)) :
    Found descriptor tag field isPacked := by
  rw [fieldOfTag] at found
  cases preferred : descriptor.fields.find? (hasTag tag) with
  | some other =>
      rw [preferred] at found
      cases found
      have member := List.mem_of_find?_eq_some preferred
      have same : hasTag tag field = true := List.find?_some preferred
      exact ⟨member, (beq_iff_eq.mp same).symm, (descriptor.valid field member).packable⟩
  | none =>
      rw [preferred] at found
      obtain ⟨other, alternate, same⟩ := Option.map_eq_some_iff.mp found
      cases same
      obtain ⟨repeated, isObject, same⟩ := hasAlternateTag_iff.mp (List.find?_some alternate)
      refine ⟨List.mem_of_find?_eq_some alternate, same.symm, fun _ => ⟨repeated, ?_⟩⟩
      cases dataType : field.dataType with
      | plain type =>
          rw [dataType, GPBDataType.isObject, Bool.not_eq_false'] at isObject
          exact ⟨type, rfl, isObject⟩
      | message msgClass =>
          rw [dataType] at isObject
          cases isObject
      | group msgClass =>
          rw [dataType] at isObject
          cases isObject

/-- No field has an end tag. -/
theorem fieldOfTag_endGroup (descriptor : GPBDescriptor Class) {number : BitVec 32}
    (valid : GPBWireFormat.FieldNumber number) :
    fieldOfTag descriptor (GPBWireFormat.makeTag number .endGroup) = none := by
  cases outcome : fieldOfTag descriptor (GPBWireFormat.makeTag number .endGroup) with
  | none => rfl
  | some found =>
      obtain ⟨field, isPacked⟩ := found
      have found := found_of_fieldOfTag outcome
      obtain ⟨_, formats⟩ := GPBWireFormat.makeTag_injective valid
        (descriptor.valid field found.member).number found.tag
      cases isPacked with
      | true => cases formats
      | false =>
          cases dataType : field.dataType with
          | plain type => rw [dataType] at formats; cases type <;> cases formats
          | message msgClass => rw [dataType] at formats; cases formats
          | group msgClass => rw [dataType] at formats; cases formats

variable {classes : Class → GPBDescriptor Class} {messageClass : Class} {fuel : Nat}
  {tag : BitVec 32} {isPacked : Bool} {self set : GPBMessage Class}
  {state t u : GPBCodedInputStreamState}

theorem merge_end (tagged : readTag state = .ok 0 t) :
    mergePlainly classes (fuel + 1) messageClass self state = .ok self t := by
  rw [mergePlainly, bind_ok tagged, if_pos rfl]
  rfl

theorem merge_known (tagged : readTag state = .ok tag t) (nonzero : tag ≠ 0)
    (found : fieldOfTag (classes messageClass) tag = some (field, isPacked))
    (merged : mergeKnownField (mergePlainly classes fuel) fuel (classes messageClass).fileSyntax
      field isPacked self t = .ok set u) :
    mergePlainly classes (fuel + 1) messageClass self state =
      mergePlainly classes fuel messageClass set u := by
  rw [mergePlainly, bind_ok tagged, if_neg nonzero, found]
  exact bind_ok merged

theorem merge_unknown (tagged : readTag state = .ok tag t) (nonzero : tag ≠ 0)
    (unknown : fieldOfTag (classes messageClass) tag = none)
    (parsed : parseUnknownField fuel tag self t = .ok (true, set) u) :
    mergePlainly classes (fuel + 1) messageClass self state =
      mergePlainly classes fuel messageClass set u := by
  rw [mergePlainly, bind_ok tagged, if_neg nonzero, unknown]
  exact bind_ok parsed

theorem merge_stop (tagged : readTag state = .ok tag t) (nonzero : tag ≠ 0)
    (unknown : fieldOfTag (classes messageClass) tag = none)
    (parsed : parseUnknownField fuel tag self t = .ok (false, set) u) :
    mergePlainly classes (fuel + 1) messageClass self state = .ok set u := by
  rw [mergePlainly, bind_ok tagged, if_neg nonzero, unknown]
  exact bind_ok parsed

/-- The loop of a message. -/
abbrev messageLoop (classes : Class → GPBDescriptor Class) (messageClass : Class) :
    TagLoop Unit (GPBMessage Class) := fun fuel _ self => mergePlainly classes fuel messageClass self

theorem ends_messageLoop : Ends (messageLoop classes messageClass) where
  atLimit tagged := merge_end tagged
  atEndTag valid tagged := by
    refine merge_stop tagged (GPBWireFormat.makeTag_ne_zero valid .endGroup)
      (fieldOfTag_endGroup _ valid) ?_
    rw [parseUnknownField, if_pos (GPBWireFormat.getTagWireType_makeTag valid .endGroup)]
    rfl

end GPBMessage
end LeptosMusic
