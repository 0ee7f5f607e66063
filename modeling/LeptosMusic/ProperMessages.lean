import LeptosMusic.MessageParsing

/-!
# Messages that are read back

A proper message has what the accessors and the parser make: its fields are declared, in order and
of the declared types, at most one of a oneof is set, and its unknown fields are none of the
declared ones, but for the numbers that an enumeration has refused. Merging keeps to this.
-/
namespace LeptosMusic
open KeyedLists (alter lookup Sorted)

namespace GPBMessage
open GPBUnknownFieldSet (Carries Proper)

variable {Class : Type}

/-- A value that is kept where it was read. -/
def Accepts (fileSyntax : GPBFileSyntax) (field : GPBFieldDescriptor Class) :
    (type : PlainType) → type.Value → Prop
  | .enum, value => acceptsEnumValue fileSyntax field value = true
  | type, value => type.Encodable value

mutual

/-- No text in the message begins with a byte order mark. -/
def Unmarked : GPBMessage Class → Prop
  | mk fields _ => FieldsUnmarked fields

def FieldsUnmarked : List (FieldOf Class (GPBMessage Class)) → Prop
  | [] => True
  | field :: fields => FieldUnmarked field ∧ FieldsUnmarked fields

def FieldUnmarked : FieldOf Class (GPBMessage Class) → Prop
  | ⟨_, .value type value⟩ => type.Unmarked value
  | ⟨_, .array type values⟩ => ∀ value ∈ values, type.Unmarked value
  | ⟨_, .message message⟩ => Unmarked message
  | ⟨_, .messages messages⟩ => MessagesUnmarked messages

def MessagesUnmarked : List (GPBMessage Class) → Prop
  | [] => True
  | message :: messages => Unmarked message ∧ MessagesUnmarked messages

end

theorem received_accepted {fileSyntax : GPBFileSyntax} {field : GPBFieldDescriptor Class}
    {type : PlainType} {value : type.Value} (accepted : Accepts fileSyntax field type value) :
    Accepts fileSyntax field type (type.received value) := by
  cases type with
  | string => exact PlainType.encodable_received accepted
  | bytes => exact accepted
  | enum => exact accepted
  | _ => trivial

/-- What may be stored for a field. `Sub` says what the messages in it must be. -/
inductive Fits (Sub : Class → GPBMessage Class → Prop) (fileSyntax : GPBFileSyntax)
    (field : GPBFieldDescriptor Class) : StorageOf (GPBMessage Class) → Prop where
  | value {type : PlainType} {value : type.Value} (single : field.repeated = false)
      (plain : field.dataType = .plain type) (accepted : Accepts fileSyntax field type value)
      (set : countsAsSet fileSyntax field type value = true) :
      Fits Sub fileSyntax field (.value type value)
  | array {type : PlainType} {values : List type.Value} (repeated : field.repeated = true)
      (plain : field.dataType = .plain type) (nonempty : values ≠ [])
      (accepted : ∀ value ∈ values, Accepts fileSyntax field type value) :
      Fits Sub fileSyntax field (.array type values)
  | message {msgClass : Class} {message : GPBMessage Class} (single : field.repeated = false)
      (isMessage : field.dataType.IsMessage msgClass) (inner : Sub msgClass message) :
      Fits Sub fileSyntax field (.message message)
  | messages {msgClass : Class} {messages : List (GPBMessage Class)}
      (repeated : field.repeated = true) (isMessage : field.dataType.IsMessage msgClass)
      (nonempty : messages ≠ []) (inner : ∀ message ∈ messages, Sub msgClass message) :
      Fits Sub fileSyntax field (.messages messages)

/-- A tag that no field has. -/
def Unrecognized (descriptor : GPBDescriptor Class) (number : BitVec 32) (format : GPBWireFormat) :
    Prop := fieldOfTag descriptor (GPBWireFormat.makeTag number format) = none

/-- A number that the enumeration of a field has refused. -/
def Refused (descriptor : GPBDescriptor Class) (number : BitVec 32) (value : BitVec 64) : Prop :=
  ∃ field ∈ descriptor.fields, field.number = number ∧ field.dataType = .plain .enum ∧
    ∃ raw : BitVec 32, value = raw.signExtend 64 ∧
      acceptsEnumValue descriptor.fileSyntax field raw = false

/-- An unknown field that stays one. -/
structure Foreign (descriptor : GPBDescriptor Class) (field : GPBUnknownField) : Prop where
  varints : ∀ value ∈ field.varintList,
    Unrecognized descriptor field.number .varint ∨ Refused descriptor field.number value
  others : ∀ format, format ≠ .varint → Carries field format →
    Unrecognized descriptor field.number format

structure ProperFields (Sub : Class → GPBMessage Class → Prop) (descriptor : GPBDescriptor Class)
    (message : GPBMessage Class) : Prop where
  sorted : Sorted key message.fields
  declared : ∀ field ∈ message.fields, field.descriptor ∈ descriptor.fields
  fits : ∀ field ∈ message.fields, Fits Sub descriptor.fileSyntax field.descriptor field.storage
  oneofs : ∀ field ∈ message.fields, ∀ other ∈ message.fields, ∀ oneof,
    field.descriptor.containingOneof = some oneof →
      other.descriptor.containingOneof = some oneof → key field = key other
  foreign : ∀ field ∈ message.unknownFields.fields, Foreign descriptor field

/-- A message whose messages and groups are nested at most so deep. -/
def ProperMessage (classes : Class → GPBDescriptor Class) : Nat → Class → GPBMessage Class → Prop
  | 0, messageClass, self =>
      ProperFields (fun _ _ => False) (classes messageClass) self ∧ Proper 0 self.unknownFields
  | levels + 1, messageClass, self =>
      ProperFields (ProperMessage classes levels) (classes messageClass) self ∧
        Proper (levels + 1) self.unknownFields

/-- The messages in a message. -/
def Inside (classes : Class → GPBDescriptor Class) : Nat → Class → GPBMessage Class → Prop
  | 0, _, _ => False
  | levels + 1, messageClass, message => ProperMessage classes levels messageClass message

variable {classes : Class → GPBDescriptor Class} {messageClass : Class} {levels : Nat}
  {Sub : Class → GPBMessage Class → Prop} {descriptor : GPBDescriptor Class}
  {field : GPBFieldDescriptor Class} {storage : StorageOf (GPBMessage Class)}
  {self other set : GPBMessage Class}

theorem properMessage_iff : ProperMessage classes levels messageClass self ↔
    ProperFields (Inside classes levels) (classes messageClass) self ∧
      Proper levels self.unknownFields := by
  cases levels <;> exact Iff.rfl

theorem gives_stored (field : GPBFieldDescriptor Class) (storage : StorageOf (GPBMessage Class)) :
    KeyedLists.Gives key field.number.toNat fun _ => ⟨field, storage⟩ := fun _ _ => rfl

theorem getStorage_setStorage (sorted : Sorted key self.fields) :
    (self.setStorage field storage).getStorage field = some storage := by
  rw [getStorage, setStorage, fields,
    KeyedLists.lookup_alter_same (gives_stored field storage) sorted]
  rfl

theorem setStorage_setStorage (sorted : Sorted key self.fields)
    (storage' : StorageOf (GPBMessage Class)) :
    (self.setStorage field storage).setStorage field storage' = self.setStorage field storage' :=
  congrArg (mk · self.unknownFields)
    (KeyedLists.alter_alter_same (gives_stored field storage) (gives_stored field storage') sorted)

theorem sorted_setStorage (sorted : Sorted key self.fields) :
    Sorted key (self.setStorage field storage).fields :=
  KeyedLists.sorted_alter (gives_stored field storage) sorted

/-- No other field of its oneof is set. -/
def Alone (self : GPBMessage Class) (field : GPBFieldDescriptor Class) : Prop :=
  ∀ other ∈ self.fields, ∀ oneof, field.containingOneof = some oneof →
    other.descriptor.containingOneof = some oneof → key other = field.number.toNat

theorem ProperFields.store (proper : ProperFields Sub descriptor self)
    (member : field ∈ descriptor.fields) (fits : Fits Sub descriptor.fileSyntax field storage)
    (alone : Alone self field) : ProperFields Sub descriptor (self.setStorage field storage) := by
  have cases_of {stored : FieldOf Class (GPBMessage Class)}
      (inside : stored ∈ (self.setStorage field storage).fields) :
      stored = ⟨field, storage⟩ ∨ stored ∈ self.fields := by
    rcases KeyedLists.mem_alter inside with new | ⟨_, _, _, new⟩ | old
    · exact .inl new
    · exact .inl new
    · exact .inr old
  refine ⟨sorted_setStorage proper.sorted, ?_, ?_, ?_, proper.foreign⟩
  · intro stored inside
    rcases cases_of inside with rfl | old
    · exact member
    · exact proper.declared stored old
  · intro stored inside
    rcases cases_of inside with rfl | old
    · exact fits
    · exact proper.fits stored old
  · intro stored inside stored' inside' oneof same same'
    rcases cases_of inside with rfl | old <;> rcases cases_of inside' with rfl | old'
    · rfl
    · exact (alone stored' old' oneof same same').symm
    · exact alone stored old oneof same' same
    · exact proper.oneofs stored old stored' old' oneof same same'

theorem ProperFields.filter (proper : ProperFields Sub descriptor self)
    (keeps : FieldOf Class (GPBMessage Class) → Bool) :
    ProperFields Sub descriptor (GPBMessage.mk (self.fields.filter keeps) self.unknownFields) := by
  have inside {stored} (member : stored ∈ self.fields.filter keeps) : stored ∈ self.fields :=
    List.mem_of_mem_filter member
  exact ⟨proper.sorted.filter keeps, fun stored member => proper.declared stored (inside member),
    fun stored member => proper.fits stored (inside member),
    fun stored member stored' member' => proper.oneofs stored (inside member) stored' (inside member'),
    proper.foreign⟩

theorem ProperFields.maybeClearOneof (proper : ProperFields Sub descriptor self)
    (field : GPBFieldDescriptor Class) :
    ProperFields Sub descriptor (self.maybeClearOneof field) := by
  unfold GPBMessage.maybeClearOneof
  cases field.containingOneof with
  | none => exact proper
  | some oneof => exact proper.filter _

theorem unknownFields_maybeClearOneof (self : GPBMessage Class) (field : GPBFieldDescriptor Class) :
    (self.maybeClearOneof field).unknownFields = self.unknownFields := by
  unfold GPBMessage.maybeClearOneof
  cases field.containingOneof <;> rfl

theorem unknownFields_setValue {fileSyntax : GPBFileSyntax} {type : PlainType}
    (self : GPBMessage Class) (value : Option type.Value) :
    (self.setValue fileSyntax field type value).unknownFields = self.unknownFields := by
  cases value with
  | none => exact unknownFields_maybeClearOneof self field
  | some value =>
      rw [setValue]
      split_ifs <;> exact unknownFields_maybeClearOneof self field

theorem alone_maybeClearOneof (self : GPBMessage Class) (field : GPBFieldDescriptor Class) :
    Alone (self.maybeClearOneof field) field := by
  intro other member oneof same same'
  rw [maybeClearOneof, same] at member
  have kept := (List.mem_filter.mp member).2
  simpa [same'] using kept

theorem alone_repeated (descriptor : GPBDescriptor Class) (member : field ∈ descriptor.fields)
    (repeated : field.repeated = true) (self : GPBMessage Class) : Alone self field := by
  intro other _ oneof same
  have single := (descriptor.valid field member).oneof (by rw [same]; rfl)
  rw [repeated] at single
  cases single

/-- What is stored for a declared field is what may be stored for it. -/
theorem ProperFields.getStorage (proper : ProperFields Sub descriptor self)
    (member : field ∈ descriptor.fields) (stored : self.getStorage field = some storage) :
    Fits Sub descriptor.fileSyntax field storage := by
  obtain ⟨other, found, rfl⟩ := Option.map_eq_some_iff.mp stored
  have inside := KeyedLists.mem_of_lookup found
  have keyed : key other = field.number.toNat := KeyedLists.key_of_lookup found
  have same := eq_of_number (proper.declared other inside) member (BitVec.eq_of_toNat_eq keyed)
  rw [← same]
  exact proper.fits other inside

theorem ProperFields.setValue (proper : ProperFields Sub descriptor self)
    (member : field ∈ descriptor.fields) {type : PlainType} {value : type.Value}
    (single : field.repeated = false) (plain : field.dataType = .plain type)
    (accepted : Accepts descriptor.fileSyntax field type value) :
    ProperFields Sub descriptor (self.setValue descriptor.fileSyntax field type (some value)) := by
  have cleared := proper.maybeClearOneof field
  rw [GPBMessage.setValue]
  split_ifs with set
  · exact cleared.store member (.value single plain accepted set) (alone_maybeClearOneof self field)
  · exact cleared.filter _

theorem ProperFields.setMessage (proper : ProperFields Sub descriptor self)
    (member : field ∈ descriptor.fields) {msgClass : Class} {message : GPBMessage Class}
    (single : field.repeated = false) (isMessage : field.dataType.IsMessage msgClass)
    (inner : Sub msgClass message) : ProperFields Sub descriptor (self.setMessage field message) :=
  (proper.maybeClearOneof field).store member (.message single isMessage inner)
    (alone_maybeClearOneof self field)

/-- The values of a repeated field. -/
def valuesFor (self : GPBMessage Class) (field : GPBFieldDescriptor Class) (type : PlainType) :
    List type.Value := (self.getStorage field).elim [] fun storage => storage.valuesOf type

def messagesFor (self : GPBMessage Class) (field : GPBFieldDescriptor Class) :
    List (GPBMessage Class) := (self.getStorage field).elim [] fun storage => storage.messagesOf

theorem ProperFields.valuesFor (proper : ProperFields Sub descriptor self)
    (member : field ∈ descriptor.fields) {type : PlainType} (plain : field.dataType = .plain type) :
    ∀ value ∈ self.valuesFor field type, Accepts descriptor.fileSyntax field type value := by
  intro value inside
  rw [GPBMessage.valuesFor] at inside
  cases stored : self.getStorage field with
  | none =>
      rw [stored] at inside
      cases inside
  | some storage =>
      rw [stored] at inside
      cases proper.getStorage member stored with
      | value => cases inside
      | message => cases inside
      | messages => cases inside
      | array repeated plain' nonempty accepted =>
          rw [plain] at plain'
          cases plain'
          rw [Option.elim_some, StorageOf.valuesOf_array] at inside
          exact accepted value inside

theorem IsMessage.unique {dataType : GPBDataType Class} {msgClass msgClass' : Class}
    (isMessage : dataType.IsMessage msgClass) (isMessage' : dataType.IsMessage msgClass') :
    msgClass = msgClass' := by
  cases isMessage <;> cases isMessage' <;> rfl

theorem ProperFields.messagesFor (proper : ProperFields Sub descriptor self)
    (member : field ∈ descriptor.fields) {msgClass : Class}
    (isMessage : field.dataType.IsMessage msgClass) :
    ∀ message ∈ self.messagesFor field, Sub msgClass message := by
  intro message inside
  rw [GPBMessage.messagesFor] at inside
  cases stored : self.getStorage field with
  | none =>
      rw [stored] at inside
      cases inside
  | some storage =>
      rw [stored] at inside
      cases proper.getStorage member stored with
      | value => cases inside
      | message => cases inside
      | array => cases inside
      | messages repeated isMessage' nonempty inner =>
          obtain rfl := IsMessage.unique isMessage isMessage'
          exact inner message inside

theorem ProperFields.addValues (proper : ProperFields Sub descriptor self)
    (member : field ∈ descriptor.fields) {type : PlainType} {values : List type.Value}
    (repeated : field.repeated = true) (plain : field.dataType = .plain type)
    (nonempty : values ≠ [])
    (accepted : ∀ value ∈ values, Accepts descriptor.fileSyntax field type value) :
    ProperFields Sub descriptor (self.addValues field type values) := by
  refine proper.store member (.array repeated plain ?_ ?_)
    (alone_repeated descriptor member repeated self)
  · exact List.append_ne_nil_of_right_ne_nil _ nonempty
  · intro value inside
    exact (List.mem_append.mp inside).elim (proper.valuesFor member plain value) (accepted value)

theorem ProperFields.addMessages (proper : ProperFields Sub descriptor self)
    (member : field ∈ descriptor.fields) {msgClass : Class} {messages : List (GPBMessage Class)}
    (repeated : field.repeated = true) (isMessage : field.dataType.IsMessage msgClass)
    (nonempty : messages ≠ []) (inner : ∀ message ∈ messages, Sub msgClass message) :
    ProperFields Sub descriptor (self.addMessages field messages) := by
  refine proper.store member (.messages repeated isMessage ?_ ?_)
    (alone_repeated descriptor member repeated self)
  · exact List.append_ne_nil_of_right_ne_nil _ nonempty
  · intro message inside
    exact (List.mem_append.mp inside).elim (proper.messagesFor member isMessage message)
      (inner message)

end GPBMessage
end LeptosMusic
