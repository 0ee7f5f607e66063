import LeptosMusic.Message

/-!
# The bytes of a message

The size that is computed beforehand is the length of what is written, as long as no packed array
takes 2^31 bytes: such a length would be computed as that of a negative number.
-/
namespace LeptosMusic
open GPBOutputBufferState (Emits emits_nothing emits_writeTagWithFormat emits_writeRawVarint
  emits_writeValue)

namespace GPBMessage

variable {Class : Type}

def arrayEncoding (field : GPBFieldDescriptor Class) (type : PlainType) (values : List type.Value) :
    NSData :=
  if field.isPackable then type.packed field.tag values else type.unpacked field.number values

/-- A message or a group with these bytes. -/
def messageEncoding (field : GPBFieldDescriptor Class) (bytes : NSData) : NSData :=
  match field.dataType with
  | .group _ => tagBytes field.number .startGroup ++ (bytes ++ tagBytes field.number .endGroup)
  | _ => tagBytes field.number .lengthDelimited ++ lengthPrefixed bytes

mutual

/-- The bytes of a message. -/
def encoding : GPBMessage Class → NSData
  | mk fields unknownFields => fieldsEncoding fields ++ unknownFields.encoding

def fieldsEncoding : List (FieldOf Class (GPBMessage Class)) → NSData
  | [] => []
  | field :: fields => fieldEncoding field ++ fieldsEncoding fields

def fieldEncoding : FieldOf Class (GPBMessage Class) → NSData
  | ⟨field, .value type value⟩ => tagBytes field.number type.wireFormat ++ type.encoding value
  | ⟨field, .array type values⟩ => arrayEncoding field type values
  | ⟨field, .message message⟩ => messageEncoding field (encoding message)
  | ⟨field, .messages messages⟩ => messagesEncoding field messages

def messagesEncoding (field : GPBFieldDescriptor Class) : List (GPBMessage Class) → NSData
  | [] => []
  | message :: messages =>
      messageEncoding field (encoding message) ++ messagesEncoding field messages

end

/-- The packed arrays are short enough for their sizes. -/
def ArrayPacks (field : GPBFieldDescriptor Class) (type : PlainType) (values : List type.Value) :
    Prop := field.isPackable = true → (values.flatMap type.encoding).length < 2 ^ 31

mutual

def Packs : GPBMessage Class → Prop
  | mk fields _ => FieldsPack fields

def FieldsPack : List (FieldOf Class (GPBMessage Class)) → Prop
  | [] => True
  | field :: fields => FieldPacks field ∧ FieldsPack fields

def FieldPacks : FieldOf Class (GPBMessage Class) → Prop
  | ⟨_, .value _ _⟩ => True
  | ⟨field, .array type values⟩ => ArrayPacks field type values
  | ⟨_, .message message⟩ => Packs message
  | ⟨_, .messages messages⟩ => MessagesPack messages

def MessagesPack : List (GPBMessage Class) → Prop
  | [] => True
  | message :: messages => Packs message ∧ MessagesPack messages

end

theorem tag_of_packable {field : GPBFieldDescriptor Class} (packable : field.isPackable = true) :
    field.tag = GPBWireFormat.makeTag field.number .lengthDelimited := by
  rw [GPBFieldDescriptor.tag, packable]
  rfl

theorem emits_writeArray (field : GPBFieldDescriptor Class) (type : PlainType)
    (values : List type.Value) :
    Emits (writeArray type field.number values (if field.isPackable then field.tag else 0))
      (arrayEncoding field type values) := by
  unfold arrayEncoding
  split_ifs with packable
  · have nonzero : field.tag ≠ 0 := by
      rw [tag_of_packable packable]
      exact GPBWireFormat.makeTag_lengthDelimited_ne_zero field.number
    exact emits_writeArray_packed type field.number values nonzero
  · exact emits_writeArray_unpacked type field.number values

theorem computeSizeTSizeAsInt32NoTag_eq {value : Nat} (small : value < 2 ^ 31) :
    computeSizeTSizeAsInt32NoTag value = (Varints.encode (value % 2 ^ 32)).length := by
  have low : value % 2 ^ 32 = value := Nat.mod_eq_of_lt (by omega)
  have number : (BitVec.ofNat 32 value).toNat = value := by rw [BitVec.toNat_ofNat, low]
  have nonneg : 0 ≤ (BitVec.ofNat 32 value).toInt := by
    rw [BitVec.toInt_eq_toNat_of_lt (by omega)]
    exact Int.natCast_nonneg _
  rw [computeSizeTSizeAsInt32NoTag, computeInt32SizeNoTag_eq,
    GPBOutputBufferState.signExtend_nonneg nonneg, number, low]

theorem unpacked_length (type : PlainType) (number : BitVec 32) (values : List type.Value) :
    (type.unpacked number values).length =
      (values.flatMap type.encoding).length + values.length * computeTagSize number := by
  induction values with
  | nil =>
      rw [List.length_nil, Nat.zero_mul]
      rfl
  | cons value values ih =>
      rw [PlainType.unpacked, List.flatMap_cons, List.flatMap_cons, List.length_append,
        List.length_append, List.length_append, ← PlainType.unpacked, ih,
        computeTagSize_eq number type.wireFormat, List.length_cons, Nat.add_one_mul]
      omega

theorem arraySize_eq {field : GPBFieldDescriptor Class} {type : PlainType}
    {values : List type.Value} (packs : ArrayPacks field type values) :
    fieldSize ⟨field, .array type values⟩ = (arrayEncoding field type values).length := by
  rw [fieldSize, arrayEncoding]
  by_cases none : values.length = 0
  · obtain rfl := List.length_eq_zero_iff.mp none
    rw [if_pos none]
    split_ifs <;> rfl
  · rw [if_neg none, sum_sizes]
    dsimp only
    split_ifs with packable
    · have some : values ≠ [] := fun absurd => none (congrArg List.length absurd)
      rw [PlainType.packed, if_neg some, lengthPrefixed, computeTagSize_eq field.number
        .lengthDelimited, computeSizeTSizeAsInt32NoTag_eq (packs packable),
        tag_of_packable packable, tagBytes]
      simp only [List.length_append]
      omega
    · exact (unpacked_length type field.number values).symm

theorem emits_writeMessage (field : GPBFieldDescriptor Class)
    {write : GPBOutputBufferState → WriteOutcome} {bytes : NSData} (emits : Emits write bytes)
    {size : Nat} (right : size = bytes.length) :
    Emits (writeMessage field size write) (messageEncoding field bytes) := by
  have start := emits_writeTagWithFormat field.number .startGroup
  have delimited := emits_writeTagWithFormat field.number .lengthDelimited
  have last := emits_writeTagWithFormat field.number .endGroup
  have length := emits_writeRawVarint (BitVec.ofNat 32 size)
  rw [BitVec.toNat_ofNat, right] at length
  unfold writeMessage messageEncoding
  rw [right]
  cases field.dataType with
  | plain _ => exact delimited.andThen (length.andThen emits)
  | message _ => exact delimited.andThen (length.andThen emits)
  | group _ => exact start.andThen (emits.andThen last)

theorem messageSize_eq (field : GPBFieldDescriptor Class) {bytes : NSData} {size : Nat}
    (right : size = bytes.length) :
    messageTagSize field + computeMessageSizeNoTag field size =
      (messageEncoding field bytes).length := by
  subst right
  have start := computeTagSize_eq field.number .startGroup
  have delimited := computeTagSize_eq field.number .lengthDelimited
  have last := computeTagSize_eq field.number .endGroup
  have prefixed := computeBytesSizeNoTag_eq bytes
  rw [computeBytesSizeNoTag] at prefixed
  unfold messageTagSize computeMessageSizeNoTag messageEncoding
  cases field.dataType <;> simp only [List.length_append] <;> omega

/-- The size of a message is right, and its bytes are written. -/
def Encodes (message : GPBMessage Class) : Prop :=
  message.serializedSize = message.encoding.length ∧
    Emits message.writeToCodedOutputStream message.encoding

mutual

theorem encodes : ∀ message : GPBMessage Class, message.Packs → message.Encodes
  | mk fields unknownFields => fun packs => by
      obtain ⟨size, emits⟩ := encodes_fields fields packs
      refine ⟨?_, emits.andThen unknownFields.emits_writeToCodedOutputStream⟩
      rw [serializedSize, encoding, size, unknownFields.serializedSize_eq, List.length_append]

theorem encodes_fields : ∀ fields : List (FieldOf Class (GPBMessage Class)), FieldsPack fields →
    fieldsSize fields = (fieldsEncoding fields).length ∧
      Emits (writeFields fields) (fieldsEncoding fields)
  | [] => fun _ => ⟨rfl, emits_nothing⟩
  | field :: fields => fun packs => by
      obtain ⟨size, emits⟩ := encodes_field field packs.1
      obtain ⟨sizes, emits'⟩ := encodes_fields fields packs.2
      refine ⟨?_, emits.andThen emits'⟩
      rw [fieldsSize, fieldsEncoding, size, sizes, List.length_append]

theorem encodes_field : ∀ field : FieldOf Class (GPBMessage Class), FieldPacks field →
    fieldSize field = (fieldEncoding field).length ∧ Emits (writeField field) (fieldEncoding field)
  | ⟨field, .value type value⟩ => fun _ =>
      ⟨computeSize_eq type field.number value, emits_writeValue type field.number value⟩
  | ⟨field, .array type values⟩ => fun packs =>
      ⟨arraySize_eq packs, emits_writeArray field type values⟩
  | ⟨field, .message message⟩ => fun packs => by
      obtain ⟨size, emits⟩ := encodes message packs
      exact ⟨messageSize_eq field size, emits_writeMessage field emits size⟩
  | ⟨field, .messages messages⟩ => fun packs => encodes_messages field messages packs

theorem encodes_messages (field : GPBFieldDescriptor Class) :
    ∀ messages : List (GPBMessage Class), MessagesPack messages →
      messagesSize field messages + messages.length * messageTagSize field =
          (messagesEncoding field messages).length ∧
        Emits (writeMessageArray field messages) (messagesEncoding field messages)
  | [] => fun _ => ⟨by rw [messagesSize, List.length_nil, Nat.zero_mul]; rfl, emits_nothing⟩
  | message :: messages => fun packs => by
      obtain ⟨size, emits⟩ := encodes message packs.1
      obtain ⟨sizes, emits'⟩ := encodes_messages field messages packs.2
      refine ⟨?_, (emits_writeMessage field emits size).andThen emits'⟩
      have first := messageSize_eq field size
      rw [messagesSize, messagesEncoding, List.length_cons, List.length_append, Nat.add_one_mul]
      omega

end

theorem values_le_arraySize (field : GPBFieldDescriptor Class) (type : PlainType)
    (values : List type.Value) :
    (values.flatMap type.encoding).length ≤ fieldSize ⟨field, .array type values⟩ := by
  rw [fieldSize]
  by_cases none : values.length = 0
  · obtain rfl := List.length_eq_zero_iff.mp none
    exact Nat.zero_le _
  · rw [if_neg none, sum_sizes]
    dsimp only
    split_ifs <;> omega

theorem le_computeMessageSizeNoTag (field : GPBFieldDescriptor Class) (size : Nat) :
    size ≤ computeMessageSizeNoTag field size := by
  unfold computeMessageSizeNoTag
  cases field.dataType <;> dsimp only <;> omega

mutual

/-- In a message of less than 2^31 bytes all arrays are short enough. -/
theorem packs_of_small : ∀ message : GPBMessage Class, message.serializedSize < 2 ^ 31 →
    message.Packs
  | mk fields unknownFields => fun small => by
      rw [serializedSize] at small
      exact fieldsPack_of_small fields (by omega)

theorem fieldsPack_of_small : ∀ fields : List (FieldOf Class (GPBMessage Class)),
    fieldsSize fields < 2 ^ 31 → FieldsPack fields
  | [] => fun _ => trivial
  | field :: fields => fun small => by
      rw [fieldsSize] at small
      exact ⟨fieldPacks_of_small field (by omega), fieldsPack_of_small fields (by omega)⟩

theorem fieldPacks_of_small : ∀ field : FieldOf Class (GPBMessage Class),
    fieldSize field < 2 ^ 31 → FieldPacks field
  | ⟨_, .value _ _⟩ => fun _ => trivial
  | ⟨field, .array type values⟩ => fun small _ =>
      Nat.lt_of_le_of_lt (values_le_arraySize field type values) small
  | ⟨field, .message message⟩ => fun small => by
      have inner := le_computeMessageSizeNoTag field message.serializedSize
      rw [fieldSize] at small
      exact packs_of_small message (by omega)
  | ⟨field, .messages messages⟩ => fun small => by
      rw [fieldSize] at small
      exact messagesPack_of_small field messages (by omega)

theorem messagesPack_of_small (field : GPBFieldDescriptor Class) :
    ∀ messages : List (GPBMessage Class), messagesSize field messages < 2 ^ 31 →
      MessagesPack messages
  | [] => fun _ => trivial
  | message :: messages => fun small => by
      have inner := le_computeMessageSizeNoTag field message.serializedSize
      rw [messagesSize] at small
      exact ⟨packs_of_small message (by omega), messagesPack_of_small field messages (by omega)⟩

end

/-- The data of a message are its bytes. -/
theorem data_eq {self : GPBMessage Class} (packs : self.Packs) : self.data = some self.encoding := by
  obtain ⟨size, emits⟩ := self.encodes packs
  obtain ⟨t, written, bytes⟩ := emits.exact size
  rw [data, written]
  exact congrArg some bytes

end GPBMessage
end LeptosMusic
