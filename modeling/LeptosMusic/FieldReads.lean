import LeptosMusic.MessageMerging

/-!
# Fields are read back

What the bytes of a value, an array or a message lead to when they follow the tag of their field.
-/
namespace LeptosMusic
open KeyedLists (alter lookup Sorted)
open GPBCodedInputStreamState

namespace GPBMessage
open GPBUnknownFieldSet (Carries Proper Below LeadsEach Defers)

variable {Class : Type} {classes : Class → GPBDescriptor Class} {messageClass msgClass : Class}
  {levels depth fuel : Nat} {field : GPBFieldDescriptor Class}
  {storage : StorageOf (GPBMessage Class)} {self set message : GPBMessage Class}
  {fileSyntax : GPBFileSyntax} {type : PlainType} {bytes rest : NSData}
  {merge : Class → GPBMessage Class → Reading (GPBMessage Class)}
  {state : GPBCodedInputStreamState}

/-- A round that finds a field. -/
theorem leads_known {format : GPBWireFormat} {isPacked : Bool}
    (found : fieldOfTag (classes messageClass) (GPBWireFormat.makeTag field.number format) =
      some (field, isPacked))
    (merged : ∀ fuel t, Ordered t → t.recursionDepth = depth → ∀ rest, t.ahead = bytes ++ rest →
      bytes.length ≤ fuel → ∃ tag, mergeKnownField (mergePlainly classes fuel) fuel
        (classes messageClass).fileSyntax field isPacked self t =
          .ok set ((t.skip bytes.length).retag tag)) :
    Leads (messageLoop classes messageClass) depth (tagBytes field.number format ++ bytes) self
      set := by
  have valid := ((classes messageClass).valid field (found_of_fieldOfTag found).member).number
  apply leads_round valid
  intro fuel _ state t tagged ordered atDepth rest ahead enough
  obtain ⟨tag, known⟩ := merged fuel t ordered atDepth rest ahead enough
  exact ⟨(), tag, merge_known tagged (GPBWireFormat.makeTag_ne_zero valid format) found known⟩

theorem leads_reads {format : GPBWireFormat} {isPacked : Bool}
    (found : fieldOfTag (classes messageClass) (GPBWireFormat.makeTag field.number format) =
      some (field, isPacked))
    (reads : ∀ fuel, Reads (mergeKnownField (mergePlainly classes fuel) fuel
      (classes messageClass).fileSyntax field isPacked self) bytes set) :
    Leads (messageLoop classes messageClass) depth (tagBytes field.number format ++ bytes) self set := by
  apply leads_known found
  intro fuel t ordered _ rest ahead _
  exact ⟨t.lastTag, reads fuel t ordered rest ahead⟩

theorem Accepts.encodable {value : type.Value} (accepted : Accepts fileSyntax field type value)
    (other : type ≠ .enum) : type.Encodable value := by
  cases type <;> first | exact accepted | exact absurd rfl other

theorem mergeSingleField_plain (plain : field.dataType = .plain type) (other : type ≠ .enum)
    (self : GPBMessage Class) : mergeSingleField merge fileSyntax field self =
      (readNoTag type >>= fun value => pure (self.setValue fileSyntax field type value)) := by
  rw [mergeSingleField, plain]
  cases type <;> first | rfl | exact absurd rfl other

/-- A refused number is kept among the unknown fields. -/
theorem keepEnumValue_eq (valid : GPBWireFormat.FieldNumber field.number) (self : GPBMessage Class)
    (value : BitVec 32) :
    self.keepEnumValue field value = pure (self.setUnknownFields
      (self.unknownFields.addTo field.number (·.addVarint (value.signExtend 64)))) := by
  have nonzero : field.number ≠ 0 := by
    intro zero
    have positive := valid.1
    rw [zero] at positive
    exact absurd positive (by decide)
  have merged : self.unknownFields.mergeVarintField field.number value =
      .ok (self.unknownFields.addTo field.number (·.addVarint (value.signExtend 64))) := by
    rw [GPBUnknownFieldSet.mergeVarintField, GPBUnknownFieldSet.checkNumber, if_neg nonzero]
    rfl
  rw [keepEnumValue, merged]

theorem addReadValue_plain (other : type ≠ .enum) (self : GPBMessage Class) :
    addReadValue fileSyntax field type self = (readNoTag type >>= fun value => match value with
      | some value => pure (self.addValues field type [value])
      | none => throw .invalidArgumentException) := by
  cases type <;> first | rfl | exact absurd rfl other

theorem reads_mergeSingleField (plain : field.dataType = .plain type) {value : type.Value}
    (accepted : Accepts fileSyntax field type value) (self : GPBMessage Class) :
    Reads (mergeSingleField merge fileSyntax field self) (type.encoding value)
      (self.setValue fileSyntax field type (some (type.received value))) := by
  by_cases isEnum : type = .enum
  · subst isEnum
    rw [mergeSingleField, plain]
    have known : acceptsEnumValue fileSyntax field value = true := accepted
    apply (reads_varint32 value).followed
    rw [if_pos known]
    exact reads_pure _
  · rw [mergeSingleField_plain plain isEnum]
    exact (reads_readNoTag type (accepted.encodable isEnum)).followed (reads_pure _)

theorem reads_addReadValue {value : type.Value} (accepted : Accepts fileSyntax field type value)
    (self : GPBMessage Class) :
    Reads (addReadValue fileSyntax field type self) (type.encoding value)
      (self.addValues field type [type.received value]) := by
  by_cases isEnum : type = .enum
  · subst isEnum
    have known : acceptsEnumValue fileSyntax field value = true := accepted
    apply (reads_varint32 value).followed
    rw [if_pos known]
    exact reads_pure _
  · rw [addReadValue_plain isEnum]
    exact (reads_readNoTag type (accepted.encodable isEnum)).followed (reads_pure _)

/-- Adding one by one, when adding twice is adding once. -/
theorem foldl_add {α σ : Type} {add : σ → List α → σ} {P : σ → Prop}
    (keeps : ∀ s xs, P s → P (add s xs))
    (appends : ∀ s xs ys, P s → add (add s xs) ys = add s (xs ++ ys)) {xs : List α}
    (nonempty : xs ≠ []) {s : σ} (holds : P s) :
    xs.foldl (fun s x => add s [x]) s = add s xs := by
  induction xs generalizing s with
  | nil => exact absurd rfl nonempty
  | cons x xs ih =>
      cases xs with
      | nil => rfl
      | cons y ys => exact (ih (List.cons_ne_nil y ys) (keeps s [x] holds)).trans (appends s _ _ holds)

/-- One value after the other is added. -/
def addEach (field : GPBFieldDescriptor Class) (type : PlainType) (values : List type.Value)
    (self : GPBMessage Class) : GPBMessage Class :=
  values.foldl (fun self value => self.addValues field type [value]) self

theorem addEach_eq {values : List type.Value} (nonempty : values ≠ [])
    (sorted : Sorted key self.fields) :
    addEach field type values self = self.addValues field type values := by
  have keeps (s : GPBMessage Class) (xs : List type.Value) (sorted : Sorted key s.fields) :
      Sorted key (s.addValues field type xs).fields := sorted_setStorage sorted
  refine foldl_add keeps ?_ nonempty sorted
  intro s xs ys sorted
  unfold addValues
  rw [getStorage_setStorage sorted, setStorage_setStorage sorted, Option.elim_some,
    StorageOf.valuesOf_array, List.append_assoc]

theorem isPackable_of_plain (descriptor : GPBDescriptor Class) (member : field ∈ descriptor.fields)
    (plain : field.dataType = .plain type) (notPackable : type.packable = false) :
    field.isPackable = false := by
  cases isPackable : field.isPackable with
  | false => rfl
  | true =>
      obtain ⟨_, type', plain', packable⟩ := (descriptor.valid field member).packable isPackable
      rw [plain] at plain'
      cases plain'
      rw [notPackable] at packable
      cases packable

theorem isPackable_of_single (descriptor : GPBDescriptor Class) (member : field ∈ descriptor.fields)
    (single : field.repeated = false) : field.isPackable = false := by
  cases isPackable : field.isPackable with
  | false => rfl
  | true =>
      rw [((descriptor.valid field member).packable isPackable).1] at single
      cases single

/-- The tag of one value. -/
theorem fieldOfTag_plain {descriptor : GPBDescriptor Class} (member : field ∈ descriptor.fields)
    (plain : field.dataType = .plain type) :
    fieldOfTag descriptor (GPBWireFormat.makeTag field.number type.wireFormat) =
      some (field, false) := by
  have preferred (notPackable : field.isPackable = false) :
      fieldOfTag descriptor (GPBWireFormat.makeTag field.number type.wireFormat) =
        some (field, false) := by
    have found := fieldOfTag_tag member
    rwa [GPBFieldDescriptor.tag, notPackable, plain] at found
  cases repeated : field.repeated with
  | false => exact preferred (isPackable_of_single descriptor member repeated)
  | true =>
      cases packable : type.packable with
      | false => exact preferred (isPackable_of_plain descriptor member plain packable)
      | true =>
          have found := fieldOfTag_repeated member repeated plain packable false
          rwa [plain] at found

theorem leads_unpacked (repeated : field.repeated = true) (plain : field.dataType = .plain type)
    (found : fieldOfTag (classes messageClass)
      (GPBWireFormat.makeTag field.number type.wireFormat) = some (field, false))
    {values : List type.Value}
    (accepted : ∀ value ∈ values, Accepts (classes messageClass).fileSyntax field type value)
    (self : GPBMessage Class) :
    Leads (messageLoop classes messageClass) depth (type.unpacked field.number values) self
      (addEach field type (values.map type.received) self) := by
  induction values generalizing self with
  | nil => exact leads_nil _ depth self
  | cons value values ih =>
      have later := ih (fun other member => accepted other (List.mem_cons_of_mem value member))
        (self.addValues field type [type.received value])
      rw [PlainType.unpacked, List.flatMap_cons]
      refine Leads.append (leads_reads found fun fuel => ?_) later
      rw [mergeKnownField, repeated, mergeNotPackedField, plain]
      exact reads_addReadValue (accepted value List.mem_cons_self) self

theorem encoding_length_pos (packable : type.packable = true) (value : type.Value) :
    0 < (type.encoding value).length := by
  cases type with
  | bytes => cases packable
  | string => cases packable
  | bool => exact Nat.one_pos
  | fixed32 => rw [PlainType.encoding, Varints.littleEndian_length]; decide
  | sfixed32 => rw [PlainType.encoding, Varints.littleEndian_length]; decide
  | float => rw [PlainType.encoding, Varints.littleEndian_length]; decide
  | fixed64 => rw [PlainType.encoding, Varints.littleEndian_length]; decide
  | sfixed64 => rw [PlainType.encoding, Varints.littleEndian_length]; decide
  | double => rw [PlainType.encoding, Varints.littleEndian_length]; decide
  | int32 => exact Varints.encode_length_pos _
  | int64 => exact Varints.encode_length_pos _
  | sint32 => exact Varints.encode_length_pos _
  | sint64 => exact Varints.encode_length_pos _
  | uint32 => exact Varints.encode_length_pos _
  | uint64 => exact Varints.encode_length_pos _
  | enum => exact Varints.encode_length_pos _

/-- The loop takes the values up to the limit. -/
theorem readPackedValues_ahead (plain : field.dataType = .plain type)
    (packable : type.packable = true) {values : List type.Value}
    (accepted : ∀ value ∈ values, Accepts fileSyntax field type value) (ordered : Ordered state)
    (ahead : state.ahead = values.flatMap type.encoding) (enough : state.ahead.length < fuel)
    (self : GPBMessage Class) :
    readPackedValues fileSyntax field fuel self state =
      .ok (addEach field type (values.map type.received) self) (state.skip state.ahead.length) := by
  induction values generalizing state fuel self with
  | nil =>
      obtain ⟨fuel, rfl⟩ : ∃ fuel', fuel = fuel' + 1 := ⟨fuel - 1, by omega⟩
      have nothing : state.ahead.length = 0 := congrArg List.length ahead
      rw [readPackedValues, bind_ok (bytesUntilLimit_ahead ordered), nothing]
      rfl
  | cons value values ih =>
      obtain ⟨fuel, rfl⟩ : ∃ fuel', fuel = fuel' + 1 := ⟨fuel - 1, by omega⟩
      rw [List.flatMap_cons] at ahead
      have positive := encoding_length_pos packable value
      have inside := inside_of_ahead ahead
      have read := reads_addReadValue (accepted value List.mem_cons_self) self state ordered _ ahead
      have behind : (state.skip (type.encoding value).length).ahead = values.flatMap type.encoding := by
        rw [ahead_skip, ahead, List.drop_left]
      have left : (state.skip (type.encoding value).length).ahead.length =
          state.ahead.length - (type.encoding value).length := by
        rw [ahead_skip, List.length_drop]
      have shorter : (state.skip (type.encoding value).length).ahead.length < fuel := by
        rw [left]
        omega
      have later := ih (fun other member => accepted other (List.mem_cons_of_mem value member))
        (ordered.skip inside) behind shorter (self.addValues field type [type.received value])
      rw [left, skip_skip, Nat.add_sub_cancel' inside] at later
      rw [readPackedValues, bind_ok (bytesUntilLimit_ahead ordered), if_pos (by omega), plain]
      dsimp only
      rw [if_pos packable, bind_ok read]
      exact later

theorem mergePackedField_ahead (plain : field.dataType = .plain type)
    (packable : type.packable = true) {values : List type.Value}
    (accepted : ∀ value ∈ values, Accepts fileSyntax field type value)
    (small : (values.flatMap type.encoding).length < 2 ^ 31) (ordered : Ordered state)
    (ahead : state.ahead = lengthPrefixed (values.flatMap type.encoding) ++ rest)
    (enough : (lengthPrefixed (values.flatMap type.encoding)).length ≤ fuel)
    (self : GPBMessage Class) :
    mergePackedField fuel fileSyntax field self state =
      .ok (addEach field type (values.map type.received) self)
        (state.skip (lengthPrefixed (values.flatMap type.encoding)).length) := by
  obtain ⟨size, n, _, total, read, pushed, ordered', ahead'⟩ := readLength_ahead small ordered ahead
  have shorter : ((state.skip n).narrowed (values.flatMap type.encoding).length).ahead.length <
      fuel := by
    rw [ahead']
    omega
  have values' := readPackedValues_ahead plain packable accepted ordered' ahead' shorter self
  rw [ahead'] at values'
  rw [mergePackedField, bind_ok read, bind_ok pushed, bind_ok values', ← total, ← skip_skip]
  rfl

/-- An array as it comes: packed or not. -/
def chunkEncoding (number : BitVec 32) (type : PlainType) (isPacked : Bool)
    (values : List type.Value) : NSData :=
  if isPacked then type.packed (GPBWireFormat.makeTag number .lengthDelimited) values
  else type.unpacked number values

theorem leads_chunk (member : field ∈ (classes messageClass).fields)
    (repeated : field.repeated = true) (plain : field.dataType = .plain type) {isPacked : Bool}
    (packable : isPacked = true → type.packable = true) {values : List type.Value}
    (accepted : ∀ value ∈ values, Accepts (classes messageClass).fileSyntax field type value)
    (small : isPacked = true → (values.flatMap type.encoding).length < 2 ^ 31)
    (self : GPBMessage Class) :
    Leads (messageLoop classes messageClass) depth (chunkEncoding field.number type isPacked values)
      self (addEach field type (values.map type.received) self) := by
  cases isPacked with
  | false => exact leads_unpacked repeated plain (fieldOfTag_plain member plain) accepted self
  | true =>
      have packable := packable rfl
      by_cases nothing : values = []
      · subst nothing
        exact leads_nil _ depth self
      · have found := fieldOfTag_repeated member repeated plain packable true
        rw [chunkEncoding, if_pos rfl, PlainType.packed, if_neg nothing]
        apply leads_known found
        intro fuel t ordered _ rest ahead enough
        refine ⟨t.lastTag, ?_⟩
        rw [mergeKnownField, repeated]
        exact mergePackedField_ahead plain packable accepted (small rfl) ordered ahead enough self

/-- What follows the tag of a message or a group. -/
def body (field : GPBFieldDescriptor Class) (bytes : NSData) : NSData :=
  match field.dataType with
  | .group _ => bytes ++ tagBytes field.number .endGroup
  | _ => lengthPrefixed bytes

/-- `readMessage:` or `readGroup:` -/
def readInner (field : GPBFieldDescriptor Class) (merge : Reading (GPBMessage Class)) :
    Reading (GPBMessage Class) :=
  match field.dataType with
  | .group _ => readGroup field.number merge
  | _ => readMessage merge

theorem messageEncoding_eq (isMessage : field.dataType.IsMessage msgClass) (bytes : NSData) :
    messageEncoding field bytes =
      tagBytes field.number (field.dataType.wireFormat false) ++ body field bytes := by
  unfold messageEncoding body
  generalize field.dataType = dataType at isMessage ⊢
  cases isMessage <;> rfl

theorem mergeSingleField_message (isMessage : field.dataType.IsMessage msgClass)
    (self : GPBMessage Class) :
    mergeSingleField merge fileSyntax field self = match self.getStorage field with
      | some (.message existing) => do
          return self.setStorage field (.message (← readInner field (merge msgClass existing)))
      | _ => do return self.setMessage field (← readInner field (merge msgClass init)) := by
  unfold mergeSingleField readInner
  generalize field.dataType = dataType at isMessage ⊢
  cases isMessage <;> rfl

theorem mergeNotPackedField_message (isMessage : field.dataType.IsMessage msgClass)
    (self : GPBMessage Class) :
    mergeNotPackedField merge fileSyntax field self =
      (do return self.addMessages field [← readInner field (merge msgClass init)]) := by
  unfold mergeNotPackedField readInner
  rcases isMessage_iff.mp isMessage with same | same <;> rw [same]

variable {existing : GPBMessage Class}

theorem readMessage_ahead
    (inner : Leads (messageLoop classes msgClass) (depth + 1) bytes existing message)
    (small : bytes.length < 2 ^ 31) (room : depth < kDefaultRecursionLimit) (ordered : Ordered state)
    (atDepth : state.recursionDepth = depth) (ahead : state.ahead = lengthPrefixed bytes ++ rest)
    (enough : (lengthPrefixed bytes).length ≤ fuel) :
    readMessage (mergePlainly classes fuel msgClass existing) state =
      .ok message ((state.skip (lengthPrefixed bytes).length).retag 0) := by
  obtain ⟨size, n, positive, total, read, pushed, ordered', ahead'⟩ :=
    readLength_ahead small ordered ahead
  have shorter : bytes.length < fuel := by omega
  have merged := inner.toEnd ends_messageLoop ordered'.deeper (congrArg (· + 1) atDepth) ahead'
    shorter ()
  rw [readMessage, bind_ok (checkRecursionLimit_ok (atDepth ▸ room)), bind_ok read, bind_ok pushed,
    bind_ok (enter_eq _), bind_ok merged, bind_ok (checkLastTagWas_ok (lastTag_retag 0)),
    bind_ok (leave_eq _ _ _), ← total, ← skip_skip]
  rfl

theorem readGroup_ahead {number : BitVec 32}
    (inner : Leads (messageLoop classes msgClass) (depth + 1) bytes existing message)
    (valid : GPBWireFormat.FieldNumber number) (room : depth < kDefaultRecursionLimit)
    (ordered : Ordered state) (atDepth : state.recursionDepth = depth)
    (ahead : state.ahead = (bytes ++ tagBytes number .endGroup) ++ rest)
    (enough : (bytes ++ tagBytes number .endGroup).length ≤ fuel) :
    readGroup number (mergePlainly classes fuel msgClass existing) state =
      .ok message ((state.skip (bytes ++ tagBytes number .endGroup).length).retag
        (GPBWireFormat.makeTag number .endGroup)) := by
  rw [List.append_assoc] at ahead
  rw [List.length_append] at enough ⊢
  have merged := inner.toEndTag ends_messageLoop valid ordered.deeper (congrArg (· + 1) atDepth)
    ahead enough ()
  rw [readGroup, bind_ok (checkRecursionLimit_ok (atDepth ▸ room)), bind_ok (enter_eq state),
    bind_ok merged, bind_ok (checkLastTagWas_ok (lastTag_retag _)), bind_ok (leave_eq state _ _)]
  rfl

theorem readInner_ahead (valid : GPBWireFormat.FieldNumber field.number)
    (inner : Leads (messageLoop classes msgClass) (depth + 1) bytes existing message)
    (small : bytes.length < 2 ^ 31) (room : depth < kDefaultRecursionLimit) (ordered : Ordered state)
    (atDepth : state.recursionDepth = depth) (ahead : state.ahead = body field bytes ++ rest)
    (enough : (body field bytes).length ≤ fuel) :
    ∃ tag, readInner field (mergePlainly classes fuel msgClass existing) state =
      .ok message ((state.skip (body field bytes).length).retag tag) := by
  unfold readInner
  unfold body at ahead enough ⊢
  generalize field.dataType = dataType at ahead enough ⊢
  cases dataType with
  | group => exact ⟨_, readGroup_ahead inner valid room ordered atDepth ahead enough⟩
  | plain => exact ⟨_, readMessage_ahead inner small room ordered atDepth ahead enough⟩
  | message => exact ⟨_, readMessage_ahead inner small room ordered atDepth ahead enough⟩

theorem isPackable_of_isMessage (member : field ∈ (classes messageClass).fields)
    (isMessage : field.dataType.IsMessage msgClass) : field.isPackable = false := by
  cases isPackable : field.isPackable with
  | false => rfl
  | true =>
      obtain ⟨_, type, plain, _⟩ := ((classes messageClass).valid field member).packable isPackable
      rcases isMessage_iff.mp isMessage with same | same <;> rw [plain] at same <;> cases same

/-- A message or a group is read into one that is there or a new one, and stored. -/
theorem leads_inner (store : GPBMessage Class → GPBMessage Class)
    (member : field ∈ (classes messageClass).fields) (isMessage : field.dataType.IsMessage msgClass)
    (known : ∀ fuel, mergeKnownField (mergePlainly classes fuel) fuel
      (classes messageClass).fileSyntax field false self =
        (do return store (← readInner field (mergePlainly classes fuel msgClass existing))))
    (inner : Leads (messageLoop classes msgClass) (depth + 1) bytes existing message)
    (small : bytes.length < 2 ^ 31) (room : depth < kDefaultRecursionLimit) :
    Leads (messageLoop classes messageClass) depth (messageEncoding field bytes) self
      (store message) := by
  have found := fieldOfTag_tag member
  rw [GPBFieldDescriptor.tag, isPackable_of_isMessage member isMessage] at found
  rw [messageEncoding_eq isMessage]
  apply leads_known found
  intro fuel t ordered atDepth rest ahead enough
  obtain ⟨tag, read⟩ := readInner_ahead ((classes messageClass).valid field member).number inner small
    room ordered atDepth ahead enough
  exact ⟨tag, by rw [known, bind_ok read]; rfl⟩

end GPBMessage
end LeptosMusic
