import LeptosMusic.FieldReads

/-!
# Messages are read back

The bytes of a proper message lead the loop from any other one of its class to the merge of both.
-/
namespace LeptosMusic
open KeyedLists (alter lookup Sorted)
open GPBCodedInputStreamState

namespace GPBMessage
open GPBUnknownFieldSet (Carries Proper Below LeadsEach Defers)

variable {Class : Type} {classes : Class → GPBDescriptor Class} {messageClass msgClass : Class}
  {levels depth fuel : Nat} {field : GPBFieldDescriptor Class}
  {storage : StorageOf (GPBMessage Class)} {self other set existing message : GPBMessage Class}
  {number : BitVec 32} {bytes rest : NSData}

theorem Inside.init (inside : Inside classes levels msgClass message) :
    Inside classes levels msgClass GPBMessage.init := by
  cases levels with
  | zero => exact inside.elim
  | succ level => exact proper_init classes level msgClass

theorem Inside.mergeFrom_init (inside : Inside classes levels msgClass message) :
    mergeFrom classes msgClass GPBMessage.init message = .ok message := by
  cases levels with
  | zero => exact inside.elim
  | succ level => exact GPBMessage.mergeFrom_init inside

theorem Inside.room (inside : Inside classes levels msgClass message)
    (room : depth + levels ≤ kDefaultRecursionLimit) : depth < kDefaultRecursionLimit := by
  cases levels with
  | zero => exact inside.elim
  | succ level => omega

/-- One level further down, the bytes of a message lead to a message, which is their merge unless a
text begins with a byte order mark. -/
def LeadsInside (classes : Class → GPBDescriptor Class) (levels depth : Nat) : Prop :=
  ∀ msgClass existing message, Inside classes levels msgClass existing →
    Inside classes levels msgClass message → message.encoding.length < 2 ^ 31 →
      ∃ set, Inside classes levels msgClass set ∧
        Leads (messageLoop classes msgClass) (depth + 1) message.encoding existing set ∧
          (message.Unmarked → mergeFrom classes msgClass existing message = .ok set)

theorem LeadsInside.new (leads : LeadsInside classes levels depth)
    (inside : Inside classes levels msgClass message) (small : message.encoding.length < 2 ^ 31) :
    ∃ set, Inside classes levels msgClass set ∧
      Leads (messageLoop classes msgClass) (depth + 1) message.encoding GPBMessage.init set ∧
        (message.Unmarked → set = message) := by
  obtain ⟨set, after, read, merged⟩ := leads msgClass _ message inside.init inside small
  refine ⟨set, after, read, fun unmarked => ?_⟩
  exact Except.ok.inj ((merged unmarked).symm.trans inside.mergeFrom_init)

theorem length_le_messageEncoding (field : GPBFieldDescriptor Class) (bytes : NSData) :
    bytes.length ≤ (messageEncoding field bytes).length := by
  unfold messageEncoding
  cases field.dataType <;> simp only [lengthPrefixed, List.length_append] <;> omega

theorem leads_messages (leads : LeadsInside classes levels depth)
    (room : depth + levels ≤ kDefaultRecursionLimit)
    (member : field ∈ (classes messageClass).fields) (repeated : field.repeated = true)
    (isMessage : field.dataType.IsMessage msgClass) {messages : List (GPBMessage Class)}
    (inside : ∀ message ∈ messages, Inside classes levels msgClass message)
    (small : (messagesEncoding field messages).length < 2 ^ 31) (self : GPBMessage Class) :
    ∃ received : List (GPBMessage Class), received.length = messages.length ∧
      (∀ message ∈ received, Inside classes levels msgClass message) ∧
      Leads (messageLoop classes messageClass) depth (messagesEncoding field messages) self
        (received.foldl (fun self message => self.addMessages field [message]) self) ∧
      (MessagesUnmarked messages → received = messages) := by
  induction messages generalizing self with
  | nil => exact ⟨[], rfl, inside, leads_nil _ depth self, fun _ => rfl⟩
  | cons message messages ih =>
      rw [messagesEncoding, List.length_append] at small
      have shorter := length_le_messageEncoding field message.encoding
      have first := inside message List.mem_cons_self
      obtain ⟨set, after, read, whole⟩ := leads.new first (by omega)
      obtain ⟨received, length, insides, later, wholes⟩ :=
        ih (fun other member => inside other (List.mem_cons_of_mem message member)) (by omega)
          (self.addMessages field [set])
      refine ⟨set :: received, congrArg (· + 1) length, ?_, ?_, ?_⟩
      · exact List.forall_mem_cons.mpr ⟨after, insides⟩
      · refine Leads.append ?_ later
        apply leads_inner (fun message => self.addMessages field [message]) member isMessage
          (fun fuel => ?_) read (by omega) (first.room room)
        rw [mergeKnownField, repeated]
        exact mergeNotPackedField_message isMessage self
      · exact fun unmarked => congrArg₂ List.cons (whole unmarked.1) (wholes unmarked.2)

theorem addEachMessage_eq {messages : List (GPBMessage Class)} (nonempty : messages ≠ [])
    (sorted : Sorted key self.fields) :
    messages.foldl (fun self message => self.addMessages field [message]) self =
      self.addMessages field messages := by
  have keeps (s : GPBMessage Class) (xs : List (GPBMessage Class)) (sorted : Sorted key s.fields) :
      Sorted key (s.addMessages field xs).fields := sorted_setStorage sorted
  refine foldl_add keeps ?_ nonempty sorted
  intro s xs ys sorted
  unfold addMessages
  rw [getStorage_setStorage sorted, setStorage_setStorage sorted, Option.elim_some,
    StorageOf.messagesOf_messages, List.append_assoc]

theorem arrayEncoding_eq (field : GPBFieldDescriptor Class) {type : PlainType}
    (values : List type.Value) :
    arrayEncoding field type values = chunkEncoding field.number type field.isPackable values := by
  unfold arrayEncoding chunkEncoding
  split_ifs with packable
  · rw [tag_of_packable packable]
  · rfl

theorem length_le_packed (type : PlainType) (tag : BitVec 32) (values : List type.Value) :
    (values.flatMap type.encoding).length ≤ (type.packed tag values).length := by
  rw [PlainType.packed]
  split_ifs with nothing
  · rw [nothing]
    exact Nat.le_refl 0
  · simp only [lengthPrefixed, List.length_append]
    omega

/-- The bytes of fields are read into a message; its unknown fields stay. -/
structure Takes (classes : Class → GPBDescriptor Class) (messageClass : Class) (levels depth : Nat)
    (bytes : NSData) (start set : GPBMessage Class) : Prop where
  leads : Leads (messageLoop classes messageClass) depth bytes start set
  proper : ProperFields (Inside classes levels) (classes messageClass) set
  kept : set.unknownFields = start.unknownFields

theorem takes_field (leads : LeadsInside classes levels depth)
    (room : depth + levels ≤ kDefaultRecursionLimit)
    (proper : ProperFields (Inside classes levels) (classes messageClass) self)
    (member : field ∈ (classes messageClass).fields)
    (fits : Fits (Inside classes levels) (classes messageClass).fileSyntax field storage)
    (small : (fieldEncoding ⟨field, storage⟩).length < 2 ^ 31) :
    ∃ set, Takes classes messageClass levels depth (fieldEncoding ⟨field, storage⟩) self set ∧
      (FieldUnmarked ⟨field, storage⟩ →
        mergeField classes messageClass self ⟨field, storage⟩ = .ok set) := by
  cases fits with
  | @value type value single plain accepted _ =>
      refine ⟨_, ⟨?_, proper.setValue member single plain (received_accepted accepted),
        unknownFields_setValue self _⟩, ?_⟩
      · rw [fieldEncoding]
        apply leads_reads (fieldOfTag_plain member plain)
        intro fuel
        rw [mergeKnownField, single]
        exact reads_mergeSingleField plain accepted self
      · intro unmarked
        rw [mergeField, PlainType.received_eq unmarked]
        rfl
  | @array type values repeated plain nonempty accepted =>
      have nonempty : values.map type.received ≠ [] := fun nothing =>
        nonempty (List.map_eq_nil_iff.mp nothing)
      have accepted' : ∀ value ∈ values.map type.received,
          Accepts (classes messageClass).fileSyntax field type value := by
        intro value inside
        obtain ⟨written, member', rfl⟩ := List.mem_map.mp inside
        exact received_accepted (accepted written member')
      refine ⟨_, ⟨?_, proper.addValues member repeated plain nonempty accepted', rfl⟩, ?_⟩
      · rw [fieldEncoding, arrayEncoding_eq] at small ⊢
        rw [← addEach_eq nonempty proper.sorted]
        apply leads_chunk member repeated plain ?_ accepted ?_ self
        · intro isPackable
          obtain ⟨_, type', plain', packable⟩ :=
            ((classes messageClass).valid field member).packable isPackable
          rw [plain] at plain'
          cases plain'
          exact packable
        · intro isPackable
          rw [chunkEncoding, isPackable, if_pos rfl] at small
          exact Nat.lt_of_le_of_lt (length_le_packed type _ values) small
      · intro unmarked
        have same : values.map type.received = values :=
          (List.map_congr_left fun value inside =>
            PlainType.received_eq (unmarked value inside)).trans (List.map_id values)
        rw [mergeField, same]
        rfl
  | @messages msgClass messages repeated isMessage nonempty inside =>
      obtain ⟨received, length, insides, read, whole⟩ :=
        leads_messages leads room member repeated isMessage inside small self
      have nonempty : received ≠ [] := by
        rintro rfl
        exact nonempty (List.length_eq_zero_iff.mp length.symm)
      refine ⟨_, ⟨?_, proper.addMessages member repeated isMessage nonempty insides, rfl⟩, ?_⟩
      · rw [← addEachMessage_eq nonempty proper.sorted]
        exact read
      · intro unmarked
        rw [mergeField, whole unmarked]
        rfl
  | @message msgClass message single isMessage inside =>
      rw [fieldEncoding] at small ⊢
      have shorter := Nat.lt_of_le_of_lt (length_le_messageEncoding field message.encoding) small
      rcases proper.getMessage member single isMessage with absent | ⟨existing, stored, before⟩
      · obtain ⟨set, after, read, whole⟩ := leads.new inside shorter
        refine ⟨_, ⟨?_, proper.setMessage member single isMessage after,
          unknownFields_maybeClearOneof self field⟩, ?_⟩
        · apply leads_inner (self.setMessage field) member isMessage (fun fuel => ?_) read shorter
            (inside.room room)
          rw [mergeKnownField, single]
          change mergeSingleField _ _ _ _ = _
          rw [mergeSingleField_message isMessage, absent]
        · intro unmarked
          rw [mergeField_new absent, whole unmarked]
      · obtain ⟨set, after, read, merged⟩ := leads msgClass existing message before inside shorter
        refine ⟨_, ⟨?_, proper.replaceMessage member single isMessage stored after, rfl⟩, ?_⟩
        · apply leads_inner (fun message => self.setStorage field (.message message)) member
            isMessage (fun fuel => ?_) read shorter (inside.room room)
          rw [mergeKnownField, single]
          change mergeSingleField _ _ _ _ = _
          rw [mergeSingleField_message isMessage, stored]
        · exact fun unmarked => mergeField_existing stored isMessage (merged unmarked)

theorem defers_messageLoop (valid : GPBWireFormat.FieldNumber number) {format : GPBWireFormat}
    (notEnd : format ≠ .endGroup) (unrecognized : Unrecognized (classes messageClass) number format)
    (self : GPBMessage Class) :
    Defers (messageLoop classes messageClass) self.setUnknownFields
      (GPBWireFormat.makeTag number format) := by
  intro fuel _ set set' state t u tagged field
  refine ⟨(), merge_unknown tagged (GPBWireFormat.makeTag_ne_zero valid format) unrecognized ?_⟩
  have other : GPBWireFormat.getTagWireType (GPBWireFormat.makeTag number format) ≠
      some .endGroup := by
    rw [GPBWireFormat.getTagWireType_makeTag valid]
    exact fun same => notEnd (Option.some.inj same)
  rw [parseUnknownField, if_neg other]
  exact bind_ok field

/-- A number that the enumeration has refused is refused again. -/
theorem leads_refused {value : BitVec 64} (refused : Refused (classes messageClass) number value)
    (self : GPBMessage Class) (set : GPBUnknownFieldSet) :
    Leads (messageLoop classes messageClass) depth
      (tagBytes number .varint ++ Varints.encode value.toNat) (self.setUnknownFields set)
        (self.setUnknownFields (set.addTo number (·.addVarint value))) := by
  obtain ⟨field, member, rfl, plain, raw, rfl, no⟩ := refused
  apply leads_reads (fieldOfTag_plain member plain)
  intro fuel
  have kept := keepEnumValue_eq ((classes messageClass).valid field member).number
    (self.setUnknownFields set) raw
  have refused : ¬ acceptsEnumValue (classes messageClass).fileSyntax field raw = true := by
    rw [no]
    exact Bool.false_ne_true
  cases repeated : field.repeated with
  | false =>
      rw [mergeKnownField, repeated]
      change Reads (mergeSingleField _ _ _ _) _ _
      rw [mergeSingleField, plain]
      apply (reads_int32 raw).followed
      rw [if_neg refused, kept]
      exact reads_pure _
  | true =>
      rw [mergeKnownField, repeated]
      change Reads (mergeNotPackedField _ _ _ _) _ _
      rw [mergeNotPackedField, plain]
      apply (reads_int32 raw).followed
      rw [if_neg refused, kept]
      exact reads_pure _

theorem leadsEach_foreign {field : GPBUnknownField} (room : depth + levels ≤ kDefaultRecursionLimit)
    (fit : GPBUnknownFieldSet.FitField (Below levels) field)
    (foreign : Foreign (classes messageClass) field) (self : GPBMessage Class) :
    LeadsEach (messageLoop classes messageClass) self.setUnknownFields depth field := by
  have defers {format : GPBWireFormat} (notEnd : format ≠ .endGroup) :=
    @defers_messageLoop _ classes messageClass field.number fit.number format notEnd
  -- the field without its varints
  have rest : LeadsEach (messageLoop classes messageClass) self.setUnknownFields depth
      { field with varintList := [] } := by
    refine GPBUnknownFieldSet.leadsEach_of_fit ⟨fit.number, fit.lengths, fit.groups⟩ ?_ room
      fun _ below => GPBUnknownFieldSet.leads_below below room
    intro format carries
    cases format with
    | varint => exact absurd rfl carries
    | endGroup => exact carries.elim
    | fixed32 => exact defers (by decide) (foreign.others .fixed32 (by decide) carries) self
    | fixed64 => exact defers (by decide) (foreign.others .fixed64 (by decide) carries) self
    | lengthDelimited =>
        exact defers (by decide) (foreign.others .lengthDelimited (by decide) carries) self
    | startGroup => exact defers (by decide) (foreign.others .startGroup (by decide) carries) self
  refine ⟨?_, rest.fixed32s, rest.fixed64s, rest.blocks, rest.groups⟩
  intro value member set
  rcases foreign.varints value member with unrecognized | refused
  · exact GPBUnknownFieldSet.leads_value fit.number (defers (by decide) unrecognized self)
      (reads_varint64 value) (GPBUnknownFieldSet.mergeFieldFrom_makeTag fit.number .varint) set
  · exact leads_refused refused self set

theorem takes_fields (leads : LeadsInside classes levels depth)
    (room : depth + levels ≤ kDefaultRecursionLimit)
    {fields : List (FieldOf Class (GPBMessage Class))}
    (proper : ProperFields (Inside classes levels) (classes messageClass) self)
    (declared : ∀ field ∈ fields, field.descriptor ∈ (classes messageClass).fields)
    (fits : ∀ field ∈ fields, Fits (Inside classes levels) (classes messageClass).fileSyntax
      field.descriptor field.storage)
    (small : (fieldsEncoding fields).length < 2 ^ 31) :
    ∃ set, Takes classes messageClass levels depth (fieldsEncoding fields) self set ∧
      (FieldsUnmarked fields → mergeFields classes messageClass self fields = .ok set) := by
  induction fields generalizing self with
  | nil =>
      refine ⟨self, ⟨leads_nil _ depth self, proper, rfl⟩, fun _ => ?_⟩
      rw [mergeFields]
      rfl
  | cons field fields ih =>
      rw [fieldsEncoding, List.length_append] at small
      have smaller : (fieldEncoding field).length < 2 ^ 31 := by omega
      obtain ⟨next, first, merged⟩ := takes_field leads room proper
        (declared field List.mem_cons_self) (fits field List.mem_cons_self) smaller
      obtain ⟨set, later, rest⟩ := ih first.proper
        (fun other member => declared other (List.mem_cons_of_mem field member))
        (fun other member => fits other (List.mem_cons_of_mem field member)) (by omega)
      refine ⟨set, ⟨first.leads.append later.leads, later.proper, later.kept.trans first.kept⟩, ?_⟩
      intro unmarked
      rw [mergeFields, merged unmarked.1]
      exact rest unmarked.2

theorem leads_unknownFields (room : depth + levels ≤ kDefaultRecursionLimit)
    {unknownFields : GPBUnknownFieldSet} (proper : Proper levels unknownFields)
    (foreign : ∀ field ∈ unknownFields.fields, Foreign (classes messageClass) field)
    (sorted : Sorted UnknownFieldOf.key self.unknownFields.fields) :
    Leads (messageLoop classes messageClass) depth unknownFields.encoding self
      (self.setUnknownFields (self.unknownFields.merged unknownFields)) := by
  have proper := ((GPBUnknownFieldSet.proper_iff levels unknownFields).mp proper).2
  obtain ⟨fields⟩ := unknownFields
  have each (field : GPBUnknownField) (member : field ∈ fields) :
      LeadsEach (messageLoop classes messageClass) self.setUnknownFields depth field :=
    leadsEach_foreign room (proper field member).toFitField (foreign field member) self
  have leads := GPBUnknownFieldSet.leads_fields each
    (fun field member => (proper field member).updates) sorted
  obtain ⟨stored, unknown⟩ := self
  exact leads

theorem leads_message_of_inside (leads : LeadsInside classes levels depth)
    (room : depth + levels ≤ kDefaultRecursionLimit)
    (proper : ProperMessage classes levels messageClass self)
    (proper' : ProperMessage classes levels messageClass other)
    (small : other.encoding.length < 2 ^ 31) :
    ∃ set, ProperMessage classes levels messageClass set ∧
      Leads (messageLoop classes messageClass) depth other.encoding self set ∧
        (other.Unmarked → mergeFrom classes messageClass self other = .ok set) := by
  obtain ⟨fields, unknown⟩ := properMessage_iff.mp proper
  obtain ⟨fields', unknown'⟩ := properMessage_iff.mp proper'
  obtain ⟨stored, unknownFields⟩ := other
  rw [encoding, List.length_append] at small
  have smaller : (fieldsEncoding stored).length < 2 ^ 31 := by omega
  obtain ⟨next, first, merged⟩ :=
    takes_fields leads room fields fields'.declared fields'.fits smaller
  have sorted : Sorted UnknownFieldOf.key next.unknownFields.fields := by
    rw [first.kept]
    exact unknown.sorted
  refine ⟨_, properMessage_iff.mpr ⟨?_, ?_⟩,
    first.leads.append (leads_unknownFields room unknown' fields'.foreign sorted), fun unmarked => ?_⟩
  · exact first.proper.setUnknownFields (foreign_merged first.proper.foreign fields'.foreign)
  · change Proper levels (next.unknownFields.merged _)
    rw [first.kept]
    exact GPBUnknownFieldSet.proper_merged unknown unknown'
  · exact mergeFrom_eq (merged unmarked) unknown'

theorem leads_inside (room : depth + levels ≤ kDefaultRecursionLimit) :
    LeadsInside classes levels depth := by
  induction levels generalizing depth with
  | zero => exact fun _ _ _ absurd => absurd.elim
  | succ level ih =>
      intro msgClass existing message before inside small
      have space : depth + 1 + level ≤ kDefaultRecursionLimit := by omega
      exact leads_message_of_inside (ih space) space before inside small

/-- Wherever the recursion limit leaves room for it, a message is read. -/
theorem leads_message (room : depth + levels ≤ kDefaultRecursionLimit)
    (proper : ProperMessage classes levels messageClass self)
    (proper' : ProperMessage classes levels messageClass other)
    (small : other.encoding.length < 2 ^ 31) :
    ∃ set, ProperMessage classes levels messageClass set ∧
      Leads (messageLoop classes messageClass) depth other.encoding self set ∧
        (other.Unmarked → mergeFrom classes messageClass self other = .ok set) :=
  leads_message_of_inside (leads_inside room) room proper proper' small

/-- A field of a message as it comes: one that is known, or an unknown one. -/
inductive Piece (Class : Type) where
  | known (field : FieldOf Class (GPBMessage Class))
  | unknown (field : GPBUnknownField)

namespace Piece

def encoding : Piece Class → NSData
  | known field => fieldEncoding field
  | unknown field => GPBUnknownFieldSet.fieldEncoding field

def knownField : Piece Class → Option (FieldOf Class (GPBMessage Class))
  | known field => some field
  | unknown _ => none

def unknownField : Piece Class → Option GPBUnknownField
  | known _ => none
  | unknown field => some field

end Piece

def knownFields (pieces : List (Piece Class)) : List (FieldOf Class (GPBMessage Class)) :=
  pieces.filterMap Piece.knownField

def unknownFieldsOf (pieces : List (Piece Class)) : List GPBUnknownField :=
  pieces.filterMap Piece.unknownField

/-- The pieces of a message, as they are written. -/
def pieces (self : GPBMessage Class) : List (Piece Class) :=
  self.fields.map .known ++ self.unknownFields.fields.map .unknown

theorem knownFields_pieces (self : GPBMessage Class) : knownFields self.pieces = self.fields := by
  simp [knownFields, pieces, List.filterMap_map, Function.comp_def, Piece.knownField]

theorem unknownFieldsOf_pieces (self : GPBMessage Class) :
    unknownFieldsOf self.pieces = self.unknownFields.fields := by
  simp [unknownFieldsOf, pieces, List.filterMap_map, Function.comp_def, Piece.unknownField]

theorem encoding_pieces (self : GPBMessage Class) :
    self.pieces.flatMap Piece.encoding = self.encoding := by
  obtain ⟨fields, ⟨unknownFields⟩⟩ := self
  have known : (fields.map Piece.known).flatMap Piece.encoding = fieldsEncoding fields := by
    induction fields with
    | nil => rfl
    | cons field fields ih =>
        rw [List.map_cons, List.flatMap_cons, ih]
        rfl
  have unknown : (unknownFields.map (@Piece.unknown Class)).flatMap Piece.encoding =
      GPBUnknownFieldSet.fieldsEncoding unknownFields := by
    induction unknownFields with
    | nil => rfl
    | cons field unknownFields ih =>
        rw [List.map_cons, List.flatMap_cons, ih]
        rfl
  rw [pieces, List.flatMap_append]
  exact congrArg₂ (· ++ ·) known unknown

/-- The pieces of one message: each may come, and none replaces another. -/
structure Assorted (Sub : Class → GPBMessage Class → Prop) (levels : Nat)
    (descriptor : GPBDescriptor Class) (pieces : List (Piece Class)) : Prop where
  declared : ∀ field ∈ knownFields pieces, field.descriptor ∈ descriptor.fields
  fits : ∀ field ∈ knownFields pieces,
    Fits Sub descriptor.fileSyntax field.descriptor field.storage
  unmarked : ∀ field ∈ knownFields pieces, FieldUnmarked field
  apart : (knownFields pieces).Pairwise Apart
  proper : ∀ field ∈ unknownFieldsOf pieces, GPBUnknownFieldSet.ProperField (Below levels) field
  foreign : ∀ field ∈ unknownFieldsOf pieces, Foreign descriptor field

theorem unmarked_of_mem {fields : List (FieldOf Class (GPBMessage Class))}
    (unmarked : FieldsUnmarked fields) : ∀ field ∈ fields, FieldUnmarked field := by
  induction fields with
  | nil => exact fun _ absurd => by cases absurd
  | cons field fields ih =>
      intro other member
      rcases List.mem_cons.mp member with rfl | later
      · exact unmarked.1
      · exact ih unmarked.2 other later

theorem assorted_pieces (proper : ProperMessage classes levels messageClass message)
    (unmarked : message.Unmarked) :
    Assorted (Inside classes levels) levels (classes messageClass) message.pieces := by
  have texts : FieldsUnmarked message.fields := by
    obtain ⟨stored, _⟩ := message
    exact unmarked
  obtain ⟨fields, unknown⟩ := properMessage_iff.mp proper
  have unknown := ((GPBUnknownFieldSet.proper_iff levels _).mp unknown).2
  constructor
  · rw [knownFields_pieces]
    exact fields.declared
  · rw [knownFields_pieces]
    exact fields.fits
  · rw [knownFields_pieces]
    exact unmarked_of_mem texts
  · rw [knownFields_pieces]
    exact fields.apart
  · rw [unknownFieldsOf_pieces]
    exact unknown
  · rw [unknownFieldsOf_pieces]
    exact fields.foreign

theorem Assorted.perm {Sub : Class → GPBMessage Class → Prop} {descriptor : GPBDescriptor Class}
    {pieces pieces' : List (Piece Class)} (assorted : Assorted Sub levels descriptor pieces)
    (walk : pieces.Perm pieces') : Assorted Sub levels descriptor pieces' := by
  have known := walk.filterMap Piece.knownField
  have unknown := walk.filterMap Piece.unknownField
  constructor
  · exact fun field member => assorted.declared field (known.mem_iff.mpr member)
  · exact fun field member => assorted.fits field (known.mem_iff.mpr member)
  · exact fun field member => assorted.unmarked field (known.mem_iff.mpr member)
  · exact known.pairwise assorted.apart Apart.symm
  · exact fun field member => assorted.proper field (unknown.mem_iff.mpr member)
  · exact fun field member => assorted.foreign field (unknown.mem_iff.mpr member)

theorem Assorted.tail {Sub : Class → GPBMessage Class → Prop} {descriptor : GPBDescriptor Class}
    {piece : Piece Class} {pieces : List (Piece Class)}
    (assorted : Assorted Sub levels descriptor (piece :: pieces)) :
    Assorted Sub levels descriptor pieces := by
  have known : (knownFields pieces).Sublist (knownFields (piece :: pieces)) :=
    (List.sublist_cons_self piece pieces).filterMap Piece.knownField
  have unknown : (unknownFieldsOf pieces).Sublist (unknownFieldsOf (piece :: pieces)) :=
    (List.sublist_cons_self piece pieces).filterMap Piece.unknownField
  constructor
  · exact fun field member => assorted.declared field (known.mem member)
  · exact fun field member => assorted.fits field (known.mem member)
  · exact fun field member => assorted.unmarked field (known.mem member)
  · exact assorted.apart.sublist known
  · exact fun field member => assorted.proper field (unknown.mem member)
  · exact fun field member => assorted.foreign field (unknown.mem member)

/-- The pieces that are known are stored, and the others are merged into the unknown fields. -/
theorem leads_pieces (room : depth + levels ≤ kDefaultRecursionLimit) {pieces : List (Piece Class)}
    (assorted : Assorted (Inside classes levels) levels (classes messageClass) pieces)
    (proper : ProperFields (Inside classes levels) (classes messageClass) self)
    (apart : ∀ field ∈ knownFields pieces, ∀ other ∈ self.fields, Apart field other)
    (sorted : Sorted UnknownFieldOf.key self.unknownFields.fields)
    (small : (pieces.flatMap Piece.encoding).length < 2 ^ 31) :
    Leads (messageLoop classes messageClass) depth (pieces.flatMap Piece.encoding) self
      (mk (KeyedLists.merge key takeField self.fields (knownFields pieces))
        (self.unknownFields.merged (.mk (unknownFieldsOf pieces)))) := by
  induction pieces generalizing self with
  | nil =>
      obtain ⟨stored, unknown⟩ := self
      exact leads_nil _ depth (mk stored unknown)
  | cons piece pieces ih =>
      rw [List.flatMap_cons, List.length_append] at small
      rw [List.flatMap_cons]
      cases piece with
      | known field =>
          have first : field ∈ knownFields (.known field :: pieces) := List.mem_cons_self
          have here := assorted.declared field first
          have fit := assorted.fits field first
          have smaller : (fieldEncoding field).length < 2 ^ 31 := by
            change (fieldEncoding field).length + _ < _ at small
            omega
          obtain ⟨next, read, merged⟩ := takes_field (leads_inside room) room proper here fit smaller
          have stored := @mergeField_apart _ classes messageClass _ _ _ self fit (apart field first)
          obtain rfl :=
            Except.ok.inj (stored.symm.trans (merged (assorted.unmarked field first)))
          refine read.leads.append ?_
          refine ih assorted.tail read.proper ?_ sorted (by omega)
          intro other member stored inside
          have pairs := (List.pairwise_cons.mp assorted.apart).1 other member
          rcases KeyedLists.mem_alter inside with rfl | ⟨_, _, _, rfl⟩ | old
          · exact pairs.symm
          · exact pairs.symm
          · exact apart other (List.mem_cons_of_mem field member) stored old
      | unknown field =>
          have first : field ∈ unknownFieldsOf (.unknown field :: pieces) := List.mem_cons_self
          have fit := assorted.proper field first
          have foreign := assorted.foreign field first
          have leads := (leadsEach_foreign room fit.toFitField foreign self).field fit.updates sorted
          obtain ⟨stored, unknown⟩ := self
          refine Leads.append leads (ih assorted.tail (proper.setUnknownFields ?_) apart
            (GPBUnknownFieldSet.sorted_mergeField field sorted) (by omega))
          apply foreign_addTo proper.foreign
          intro other same kept
          exact kept.mergeFromField foreign same.symm

theorem mergeFromData_of_leads (leads : Leads (messageLoop classes messageClass) 0 bytes self set)
    (small : bytes.length < 2 ^ 62) :
    mergeFromData classes messageClass self bytes = .ok set := by
  have merged := leads.toEnd ends_messageLoop (ordered_initWithData small) rfl
    (ahead_initWithData bytes) (Nat.lt_succ_self _) ()
  have checked : checkLastTagWas 0 (((initWithData bytes).skip bytes.length).retag 0) = .ok () _ :=
    checkLastTagWas_ok (lastTag_retag 0)
  rw [mergeFromData, mergeFromCodedInputStream_plainly, bind_ok merged, bind_ok checked]
  rfl

theorem encoding_length (small : message.serializedSize < 2 ^ 31) :
    message.encoding.length = message.serializedSize :=
  (message.encodes (packs_of_small message small)).1.symm

theorem data_small (small : message.serializedSize < 2 ^ 31) :
    message.data = some message.encoding := data_eq (packs_of_small message small)

theorem leads_small
    (proper : ProperMessage classes kDefaultRecursionLimit messageClass self)
    (proper' : ProperMessage classes kDefaultRecursionLimit messageClass message)
    (small : message.serializedSize < 2 ^ 31) :
    ∃ set, ProperMessage classes kDefaultRecursionLimit messageClass set ∧
      Leads (messageLoop classes messageClass) 0 message.encoding self set ∧
        (message.Unmarked → mergeFrom classes messageClass self message = .ok set) :=
  leads_message (Nat.le_of_eq (Nat.zero_add _)) proper proper' (by rwa [encoding_length small])

theorem mergeFromData_encoding
    (proper : ProperMessage classes kDefaultRecursionLimit messageClass message)
    (small : message.serializedSize < 2 ^ 31) :
    ∃ set, mergeFromData classes messageClass init message.encoding = .ok set ∧
      ProperMessage classes kDefaultRecursionLimit messageClass set ∧
        (message.Unmarked → set = message) := by
  have length := encoding_length small
  obtain ⟨set, properSet, leads, merged⟩ :=
    leads_small (proper_init classes kDefaultRecursionLimit messageClass) proper small
  refine ⟨set, mergeFromData_of_leads leads (by omega), properSet, fun unmarked => ?_⟩
  exact Except.ok.inj ((merged unmarked).symm.trans (mergeFrom_init proper))

end GPBMessage
end LeptosMusic
