import LeptosMusic.MessageRoundTrip

/-!
# Exchanging messages

What becomes of the bytes of a message in another client: by themselves, behind those of another
message, with the fields in another order, or with the arrays written in another way.
-/
namespace LeptosMusic
open KeyedLists (Sorted)
open GPBCodedInputStreamState

namespace GPBMessage
open GPBUnknownFieldSet (Proper)

variable {Class : Type} {classes : Class → GPBDescriptor Class} {messageClass : Class}
  {self first second message : GPBMessage Class}

def sampleField (number : BitVec 32) (dataType : GPBDataType Bool) : GPBFieldDescriptor Bool :=
  { number := number, dataType := dataType, repeated := false, isPackable := false
    isValidEnumValue := fun _ => true, containingOneof := none }

def numberField : GPBFieldDescriptor Bool :=
  { sampleField 1 (.plain .sint32) with containingOneof := some 0 }

def choicesField : GPBFieldDescriptor Bool :=
  { sampleField 2 (.plain .enum) with
    repeated := true, isPackable := true, isValidEnumValue := fun value => value == 1 || value == 2 }

def partField : GPBFieldDescriptor Bool := sampleField 3 (.message true)

def groupsField : GPBFieldDescriptor Bool := { sampleField 4 (.group true) with repeated := true }

def textField : GPBFieldDescriptor Bool := sampleField 1 (.plain .string)

theorem valid_single {field : GPBFieldDescriptor Bool}
    (number : GPBWireFormat.FieldNumber field.number) (notPackable : field.isPackable = false)
    (oneof : field.containingOneof.isSome = true → field.repeated = false) : field.Valid where
  number := number
  packable packable := by
    rw [notPackable] at packable
    cases packable
  oneof := oneof

theorem valid_whole : ∀ field ∈ [numberField, choicesField, partField, groupsField], field.Valid := by
  intro field member
  simp only [List.mem_cons, List.not_mem_nil, or_false] at member
  rcases member with rfl | rfl | rfl | rfl
  · exact valid_single (by decide) rfl fun _ => rfl
  · exact ⟨by decide, fun _ => ⟨rfl, .enum, rfl, rfl⟩, fun absurd => by cases absurd⟩
  · exact valid_single (by decide) rfl fun _ => rfl
  · exact valid_single (by decide) rfl fun absurd => by cases absurd

theorem sorted_whole : [numberField, choicesField, partField, groupsField].Pairwise
    fun d e => d.number.toNat < e.number.toNat := by decide

theorem valid_part : ∀ field ∈ [textField], field.Valid := by
  intro field member
  obtain rfl := List.mem_singleton.mp member
  exact valid_single (by decide) rfl fun absurd => by cases absurd

theorem sorted_part : [textField].Pairwise fun d e => d.number.toNat < e.number.toNat :=
  List.pairwise_singleton _ _

/-- The class of parts, and the one of the messages that they are parts of. -/
def sampleClasses : Bool → GPBDescriptor Bool
  | true =>
      { fields := [textField], fileSyntax := .proto3, sorted := sorted_part, valid := valid_part }
  | false =>
      { fields := [numberField, choicesField, partField, groupsField], fileSyntax := .proto2
        sorted := sorted_whole, valid := valid_whole }

def samplePart : GPBMessage Bool := mk [⟨textField, .value .string [104, 105]⟩] .empty

/-- Among the unknown fields are a refused choice and a word. -/
def sampleMessage : GPBMessage Bool :=
  mk [⟨numberField, .value .sint32 (-5 : BitVec 32)⟩,
      ⟨choicesField, .array .enum [(1 : BitVec 32), (2 : BitVec 32)]⟩,
      ⟨partField, .message samplePart⟩, ⟨groupsField, .messages [samplePart, init]⟩]
    (.mk [⟨2, [7], [], [], [], []⟩, ⟨9, [], [5], [], [], []⟩])

theorem proper_samplePart (levels : Nat) : ProperMessage sampleClasses levels true samplePart := by
  refine properMessage_iff.mpr ⟨⟨List.pairwise_singleton _ _, ?_, ?_, ?_, ?_⟩,
    GPBUnknownFieldSet.proper_empty levels⟩
  · intro field member
    obtain rfl := List.mem_singleton.mp member
    exact List.mem_cons_self
  · intro field member
    obtain rfl := List.mem_singleton.mp member
    exact .value rfl rfl ⟨[104, 105], by decide, by decide⟩ (by decide)
  · intro field member other member' oneof _ _
    obtain rfl := List.mem_singleton.mp member
    obtain rfl := List.mem_singleton.mp member'
    rfl
  · exact fun _ absurd => by cases absurd

theorem proper_sampleMessage :
    ProperMessage sampleClasses kDefaultRecursionLimit false sampleMessage := by
  have part : Inside sampleClasses kDefaultRecursionLimit true samplePart := proper_samplePart 99
  have new : Inside sampleClasses kDefaultRecursionLimit true init := proper_init sampleClasses 99 true
  have inOneof : ∀ field ∈ sampleMessage.fields, ∀ oneof,
      field.descriptor.containingOneof = some oneof → key field = 1 := by
    intro field member oneof same
    simp only [sampleMessage, fields, List.mem_cons, List.not_mem_nil, or_false] at member
    rcases member with rfl | rfl | rfl | rfl
    · rfl
    all_goals cases same
  refine properMessage_iff.mpr ⟨⟨?_, ?_, ?_, ?_, ?_⟩, ?_⟩
  · change List.Pairwise (fun field other => key field < key other) _
    decide
  · intro field member
    simp only [sampleMessage, fields, List.mem_cons, List.not_mem_nil, or_false] at member
    rcases member with rfl | rfl | rfl | rfl <;> simp [sampleClasses]
  · intro field member
    simp only [sampleMessage, fields, List.mem_cons, List.not_mem_nil, or_false] at member
    rcases member with rfl | rfl | rfl | rfl
    · exact .value rfl rfl trivial rfl
    · refine .array rfl rfl (List.cons_ne_nil _ _) ?_
      intro value member
      rcases List.mem_pair.mp member with rfl | rfl <;> rfl
    · exact .message rfl .message part
    · refine .messages rfl .group (List.cons_ne_nil _ _) ?_
      intro message member
      rcases List.mem_pair.mp member with rfl | rfl
      · exact part
      · exact new
  · intro field member other member' oneof same same'
    rw [inOneof field member oneof same, inOneof other member' oneof same']
  · intro field member
    rcases List.mem_pair.mp member with rfl | rfl
    · constructor
      · intro value member
        obtain rfl := List.mem_singleton.mp member
        exact .inr ⟨choicesField, by simp [sampleClasses], rfl, rfl, 7, by decide, by decide⟩
      · intro format other carries
        cases format <;> first | exact absurd rfl other | exact absurd rfl carries | exact carries.elim
    · constructor
      · intro value member
        cases member
      · intro format _ carries
        cases format <;> rfl
  · refine (GPBUnknownFieldSet.proper_iff _ _).mpr ⟨List.pairwise_pair.mpr (by decide), ?_⟩
    intro field member
    rcases List.mem_pair.mp member with rfl | rfl <;>
      exact ⟨⟨by decide, fun _ none => (List.not_mem_nil none).elim,
        fun _ none => (List.not_mem_nil none).elim⟩, List.cons_ne_nil _ _⟩

theorem unmarked_sampleMessage : sampleMessage.Unmarked := by
  have text : Unicode.Unmarked [104, 105] := by decide
  have part : samplePart.Unmarked := ⟨text, trivial⟩
  exact ⟨trivial, fun _ _ => trivial, part, ⟨part, trivial, trivial⟩, trivial⟩

theorem serializedSize_sampleMessage : sampleMessage.serializedSize < 2 ^ 31 := by decide

/-- The data of a message have the size that was computed for them, and are parsed into a message
of its class, which is the same one unless a text begins with a byte order mark. -/
theorem parsed_data (proper : ProperMessage classes kDefaultRecursionLimit messageClass message)
    (small : message.serializedSize < 2 ^ 31) :
    ∃ data set, message.data = some data ∧ data.length = message.serializedSize ∧
      mergeFromData classes messageClass init data = .ok set ∧
        ProperMessage classes kDefaultRecursionLimit messageClass set ∧
          (message.Unmarked → set = message) := by
  obtain ⟨set, parsed, properSet, same⟩ := mergeFromData_encoding proper small
  exact ⟨message.encoding, set, data_small small, encoding_length small, parsed, properSet, same⟩

theorem parsed_data_sample :
    sampleMessage.Unmarked ∧
      ∃ data set, sampleMessage.data = some data ∧ data.length = sampleMessage.serializedSize ∧
        mergeFromData sampleClasses false init data = .ok set ∧
          ProperMessage sampleClasses kDefaultRecursionLimit false set ∧
            (sampleMessage.Unmarked → set = sampleMessage) :=
  ⟨unmarked_sampleMessage, parsed_data proper_sampleMessage serializedSize_sampleMessage⟩

/-- The data of one message behind those of another are parsed into a message of their class:
without byte order marks in front of texts, into what `mergeFrom:` makes of both. -/
theorem parsed_data_append
    (proper : ProperMessage classes kDefaultRecursionLimit messageClass first)
    (proper' : ProperMessage classes kDefaultRecursionLimit messageClass second)
    (small : first.serializedSize < 2 ^ 31) (small' : second.serializedSize < 2 ^ 31) :
    ∃ data data' set, first.data = some data ∧ second.data = some data' ∧
      mergeFromData classes messageClass init (data ++ data') = .ok set ∧
        ProperMessage classes kDefaultRecursionLimit messageClass set ∧
          (first.Unmarked → second.Unmarked →
            mergeFrom classes messageClass first second = .ok set) := by
  have start := proper_init classes kDefaultRecursionLimit messageClass
  obtain ⟨middle, properMiddle, front, same⟩ := leads_small start proper small
  obtain ⟨set, properSet, back, merged⟩ := leads_small properMiddle proper' small'
  have length := encoding_length small
  have length' := encoding_length small'
  refine ⟨_, _, set, data_small small, data_small small', ?_, properSet, ?_⟩
  · apply mergeFromData_of_leads (front.append back)
    rw [List.length_append]
    omega
  · intro unmarked unmarked'
    obtain rfl := Except.ok.inj ((same unmarked).symm.trans (mergeFrom_init proper))
    exact merged unmarked'

theorem parsed_data_append_sample :
    sampleMessage.Unmarked ∧
      ∃ data data' set, sampleMessage.data = some data ∧ sampleMessage.data = some data' ∧
        mergeFromData sampleClasses false init (data ++ data') = .ok set ∧
          ProperMessage sampleClasses kDefaultRecursionLimit false set ∧
            (sampleMessage.Unmarked → sampleMessage.Unmarked →
              mergeFrom sampleClasses false sampleMessage sampleMessage = .ok set) :=
  ⟨unmarked_sampleMessage, parsed_data_append proper_sampleMessage proper_sampleMessage
    serializedSize_sampleMessage serializedSize_sampleMessage⟩

/-- In whatever order the known and the unknown fields of a message come, they are parsed into it. -/
theorem parsed_pieces (proper : ProperMessage classes kDefaultRecursionLimit messageClass message)
    (unmarked : message.Unmarked) (small : message.serializedSize < 2 ^ 31)
    {pieces : List (Piece Class)} (walk : message.pieces.Perm pieces) :
    mergeFromData classes messageClass init (pieces.flatMap Piece.encoding) = .ok message := by
  obtain ⟨fields, unknown⟩ := properMessage_iff.mp proper
  have start : Sorted key (init : GPBMessage Class).fields := List.Pairwise.nil
  have start' : Sorted UnknownFieldOf.key (init : GPBMessage Class).unknownFields.fields :=
    List.Pairwise.nil
  have new := (properMessage_iff.mp (proper_init classes kDefaultRecursionLimit messageClass)).1
  have length : (pieces.flatMap Piece.encoding).length < 2 ^ 31 := by
    rw [← (walk.flatMap_right Piece.encoding).length_eq, encoding_pieces, encoding_length small]
    exact small
  have leads := leads_pieces (Nat.le_of_eq (Nat.zero_add _))
    ((assorted_pieces proper unmarked).perm walk) new
    (fun _ _ _ (absurd : _ ∈ init.fields) => by cases absurd) start' length
  have known := walk.filterMap Piece.knownField
  have others := walk.filterMap Piece.unknownField
  rw [← knownFields, knownFields_pieces] at known
  rw [← unknownFieldsOf, unknownFieldsOf_pieces] at others
  rw [mergeFromData_of_leads leads (by omega)]
  obtain ⟨stored, unknownFields⟩ := message
  exact congrArg Except.ok (congrArg₂ mk (merge_takeField fields.sorted known)
    (GPBUnknownFieldSet.empty_merged_perm unknown.sorted others))

theorem parsed_pieces_sample :
    mergeFromData sampleClasses false init (sampleMessage.pieces.reverse.flatMap Piece.encoding) =
      .ok sampleMessage :=
  parsed_pieces proper_sampleMessage unmarked_sampleMessage serializedSize_sampleMessage
    (List.reverse_perm sampleMessage.pieces).symm

/-- Some of the values of an array, packed or not. -/
structure Chunk (type : PlainType) where
  isPacked : Bool
  values : List type.Value

def Chunk.encoding {type : PlainType} (number : BitVec 32) (chunk : Chunk type) : NSData :=
  chunkEncoding number type chunk.isPacked chunk.values

/-- A chunk for this field. -/
structure ChunkOf (fileSyntax : GPBFileSyntax) (field : GPBFieldDescriptor Class) {type : PlainType}
    (chunk : Chunk type) : Prop where
  packable : chunk.isPacked = true → type.packable = true
  accepted : ∀ value ∈ chunk.values, Accepts fileSyntax field type value

theorem length_le_chunk {type : PlainType} (number : BitVec 32) {chunk : Chunk type}
    (isPacked : chunk.isPacked = true) :
    (chunk.values.flatMap type.encoding).length ≤ (chunk.encoding number).length := by
  rw [Chunk.encoding, chunkEncoding, if_pos isPacked]
  exact length_le_packed type _ chunk.values

theorem leads_chunks {field : GPBFieldDescriptor Class} {type : PlainType}
    (member : field ∈ (classes messageClass).fields) (repeated : field.repeated = true)
    (plain : field.dataType = .plain type) {chunks : List (Chunk type)}
    (each : ∀ chunk ∈ chunks, ChunkOf (classes messageClass).fileSyntax field chunk)
    (small : (chunks.flatMap (Chunk.encoding field.number)).length < 2 ^ 31)
    (self : GPBMessage Class) :
    Leads (messageLoop classes messageClass) 0 (chunks.flatMap (Chunk.encoding field.number)) self
      (addEach field type ((chunks.flatMap Chunk.values).map type.received) self) := by
  induction chunks generalizing self with
  | nil => exact leads_nil _ 0 self
  | cons chunk chunks ih =>
      rw [List.flatMap_cons, List.length_append] at small
      have first := each chunk List.mem_cons_self
      have later := ih (fun other member => each other (List.mem_cons_of_mem chunk member)) (by omega)
        (addEach field type (chunk.values.map type.received) self)
      have both : addEach field type (((chunk :: chunks).flatMap Chunk.values).map type.received) self =
          addEach field type ((chunks.flatMap Chunk.values).map type.received)
            (addEach field type (chunk.values.map type.received) self) := by
        rw [List.flatMap_cons, List.map_append]
        exact List.foldl_append
      rw [List.flatMap_cons, both]
      refine (leads_chunk member repeated plain first.packable first.accepted ?_ self).append later
      intro isPacked
      have shorter := length_le_chunk field.number isPacked
      omega

/-- A repeated field is parsed from any number of chunks, each of them packed or not, whatever the
descriptor says: the values are added in their order, strings without a byte order mark in front of
them. -/
theorem parsed_chunks {field : GPBFieldDescriptor Class} {type : PlainType}
    (member : field ∈ (classes messageClass).fields) (repeated : field.repeated = true)
    (plain : field.dataType = .plain type) {chunks : List (Chunk type)}
    (each : ∀ chunk ∈ chunks, ChunkOf (classes messageClass).fileSyntax field chunk)
    (some : chunks.flatMap Chunk.values ≠ [])
    (small : (chunks.flatMap (Chunk.encoding field.number)).length < 2 ^ 31)
    (proper : ProperMessage classes kDefaultRecursionLimit messageClass self) :
    mergeFromData classes messageClass self (chunks.flatMap (Chunk.encoding field.number)) =
      .ok (self.addValues field type ((chunks.flatMap Chunk.values).map type.received)) := by
  have sorted := (properMessage_iff.mp proper).1.sorted
  have nonempty : (chunks.flatMap Chunk.values).map type.received ≠ [] := fun nothing =>
    some (List.map_eq_nil_iff.mp nothing)
  rw [← addEach_eq nonempty sorted]
  exact mergeFromData_of_leads (leads_chunks member repeated plain each small self) (by omega)

/-- The choices come packed, one by one and packed again. -/
theorem parsed_chunks_sample :
    mergeFromData sampleClasses false sampleMessage
        (([⟨true, [1, 2]⟩, ⟨false, [2]⟩, ⟨true, [1]⟩] : List (Chunk .enum)).flatMap
          (Chunk.encoding choicesField.number)) =
      .ok (sampleMessage.addValues choicesField .enum
        ((([⟨true, [1, 2]⟩, ⟨false, [2]⟩, ⟨true, [1]⟩] : List (Chunk .enum)).flatMap
          Chunk.values).map PlainType.enum.received)) := by
  refine parsed_chunks (by simp [sampleClasses]) rfl rfl ?_ (List.cons_ne_nil _ _) (by decide +kernel)
    proper_sampleMessage
  intro chunk member
  refine ⟨fun _ => rfl, fun value inside => ?_⟩
  simp only [List.mem_cons, List.not_mem_nil, or_false] at member
  rcases member with rfl | rfl | rfl
  · rcases List.mem_pair.mp inside with rfl | rfl <;> rfl
  · obtain rfl := List.mem_singleton.mp inside
    rfl
  · obtain rfl := List.mem_singleton.mp inside
    rfl

/-- `mergeFromData:` with a search for every field from the first one on. -/
def mergeFromDataPlainly (classes : Class → GPBDescriptor Class) (messageClass : Class)
    (self : GPBMessage Class) (data : NSData) : Except ParseException (GPBMessage Class) :=
  let merge : Reading (GPBMessage Class) := do
    let self ← mergePlainly classes (data.length + 1) messageClass self
    checkLastTagWas 0
    return self
  match merge (initWithData data) with
  | .ok self _ => .ok self
  | .error exception _ => .error exception

/-- Going on behind the last field is an optimisation only: any data, well formed or not, have the
same outcome with a search from the first field on, in a message and in all messages in it. -/
theorem mergeFromData_plainly (classes : Class → GPBDescriptor Class) (messageClass : Class)
    (self : GPBMessage Class) (data : NSData) :
    mergeFromData classes messageClass self data =
      mergeFromDataPlainly classes messageClass self data := by
  rw [mergeFromData, mergeFromCodedInputStream_plainly]
  rfl

end GPBMessage
end LeptosMusic
