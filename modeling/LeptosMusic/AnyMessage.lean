import LeptosMusic.MessageExchange

/-!
# Any data

Whatever the data are, the parser ends within them: with a proper message, with an exception for the
caller, or with a read outside the data, which only a string of a negative length leads to.
-/
namespace LeptosMusic
open KeyedLists (alter lookup Sorted)
open GPBCodedInputStreamState

namespace GPBMessage
open GPBUnknownFieldSet (Carries Proper Refusal refusal_listed)

variable {Class : Type} {classes : Class → GPBDescriptor Class} {messageClass msgClass : Class}
  {levels fuel : Nat} {field : GPBFieldDescriptor Class} {self existing : GPBMessage Class}
  {fileSyntax : GPBFileSyntax} {type : PlainType} {state : GPBCodedInputStreamState}
  {tag : BitVec 32}

/-- Some message has a field of this type. -/
def HasType (classes : Class → GPBDescriptor Class) (type : PlainType) : Prop :=
  ∃ messageClass, ∃ field ∈ (classes messageClass).fields, field.dataType = .plain type

/-- What parsing a message raises; without strings, nothing is read outside the data. -/
def Fault (classes : Class → GPBDescriptor Class) (e : ParseException) : Prop :=
  Refusal e ∨ e = .badAccess ∧ HasType classes .string

theorem fault_listed (e : ParseException) (listed : e.Listed) : Fault classes e :=
  .inl (.inl listed)

theorem encodable_stringWithUTF8 {bytes : NSData} {string : NSString}
    (decoded : stringWithUTF8 bytes = some string) (small : bytes.length < 2 ^ 31) :
    PlainType.string.Encodable string := by
  obtain ⟨text, read, rfl⟩ := Option.map_eq_some_iff.mp decoded
  refine ⟨Unicode.utf8 (Unicode.dropMark text), ?_, ?_⟩
  · rw [utf8Data, Unicode.characters_utf16, Option.map_some]
  · have shorter := Unicode.length_utf8_dropMark text
    rw [Unicode.utf8_of_decodeUtf8 read] at shorter
    exact Nat.lt_of_le_of_lt shorter small

/-- What a string of a negative length raises, with its bytes at this position. The sum that is
checked wraps, and passes when it ends at a place before the position. -/
def negativeLength (size : BitVec 32) (position : Nat) : ParseException :=
  if -size.toInt ≤ position then .badAccess else .codedInputStream .invalidSize none

theorem sizeT_negative {size : BitVec 32} (negative : size.toInt < 0) :
    (sizeT size : Int) = 2 ^ 64 + size.toInt := by
  have large := GPBOutputBufferState.signExtend_negative negative
  have same := @BitVec.toInt_signExtend_of_le 32 64 size (by decide)
  rw [BitVec.toInt_eq_toNat_cond, if_neg (by omega)] at same
  rw [sizeT]
  omega

theorem readRaw_negative {size : BitVec 32} (negative : size.toInt < 0) (ordered : Ordered state) :
    ∃ t, readRaw (sizeT size) state = .error (negativeLength size state.bufferPos) t := by
  have position := ordered.position
  have limit := ordered.limit
  have small := ordered.size
  have wrapped := sizeT_negative negative
  have low := BitVec.le_toInt size
  rw [negativeLength]
  split_ifs with back
  · have passed : (state.bufferPos + sizeT size) % 2 ^ 64 = state.bufferPos + sizeT size - 2 ^ 64 := by
      rw [Nat.mod_eq_sub_mod (by omega), Nat.mod_eq_of_lt (by omega)]
    have checked : checkSize (sizeT size) state = .ok () state := by
      rw [checkSize, passed, bufferSize]
      exact (if_neg (by omega)).trans (if_neg (by omega))
    have outside : peek (sizeT size) state = .error .badAccess state := if_neg (by
      rw [bufferSize]
      omega)
    exact ⟨_, (bind_ok checked).trans (bind_error outside)⟩
  · have high : (state.bufferPos + sizeT size) % 2 ^ 64 = state.bufferPos + sizeT size :=
      Nat.mod_eq_of_lt (by omega)
    have refused : checkSize (sizeT size) state =
        .error (.codedInputStream .invalidSize none) state := by
      rw [checkSize, high, bufferSize]
      exact if_pos (by omega)
    exact ⟨_, bind_error refused⟩

theorem fault_negativeLength (strings : HasType classes .string) (size : BitVec 32)
    (position : Nat) : Fault classes (negativeLength size position) := by
  rw [negativeLength]
  split_ifs
  · exact .inr ⟨rfl, strings⟩
  · exact fault_listed _ ⟨_, _, rfl⟩

theorem lands_readRetainedString (strings : HasType classes .string) (ordered : Ordered state) :
    Lands (Fault classes) (fun string t => t.ahead.length < state.ahead.length ∧
      PlainType.string.Encodable string) state (readRetainedString state) := by
  apply (meets_readRawVarint32.lands fault_listed ordered).bind
  rintro size t follows ⟨n, inside, rfl, positive⟩
  have shorter : (state.skip n).ahead.length < state.ahead.length := by
    rw [ahead_skip, List.length_drop]
    omega
  have ordered' := follows.ordered ordered
  by_cases empty : size = 0
  · rw [if_pos empty]
    exact lands_pure ⟨shorter, [], rfl, by decide⟩
  · rw [if_neg empty]
    by_cases negative : size.toInt < 0
    · obtain ⟨u, raised⟩ := readRaw_negative negative ordered'
      rw [bind_error raised]
      exact fault_negativeLength strings size _
    · have small : sizeT size < 2 ^ 31 := by
        rw [sizeT_nonneg (by omega)]
        have value := BitVec.toInt_eq_toNat_cond size
        split_ifs at value <;> omega
      apply ((meets_readRaw (Nat.lt_trans small (by decide))).lands fault_listed ordered').bind
      rintro bytes u follows' ⟨_, _, _, _, length⟩
      have shorter' := Nat.lt_of_le_of_lt follows'.shorter shorter
      cases decoded : stringWithUTF8 bytes with
      | none => exact lands_throw (fault_listed _ ⟨_, _, rfl⟩)
      | some string =>
          exact lands_pure ⟨shorter', encodable_stringWithUTF8 decoded (by omega)⟩

/-- What a value must be that has been read. -/
def Taken (type : PlainType) (state : GPBCodedInputStreamState) (value : Option type.Value)
    (t : GPBCodedInputStreamState) : Prop :=
  t.ahead.length < state.ahead.length ∧ (type.packable = true → value.isSome = true) ∧
    ∀ v, value = some v → type.Encodable v

/-- A value that takes a byte at least. -/
theorem lands_taken {α : Type} {read : Reading α} (f : α → type.Value) (packable : type.packable = true)
    (meets : Meets read fun _ n => 1 ≤ n) (ordered : Ordered state) :
    Lands (Fault classes) (Taken type state) state ((do return some (f (← read))) state) := by
  apply (meets.lands fault_listed ordered).bind
  rintro a t _ ⟨n, inside, rfl, positive⟩
  refine lands_pure ⟨?_, fun _ => rfl, fun v _ => ?_⟩
  · rw [ahead_skip, List.length_drop]
    omega
  · cases type <;> trivial

theorem lands_readNoTag (present : HasType classes type) (ordered : Ordered state) :
    Lands (Fault classes) (Taken type state) state (readNoTag type state) := by
  cases type with
  | bool => exact lands_taken _ rfl meets_readRawVarint32 ordered
  | fixed32 => exact lands_taken id rfl meets_readRawLittleEndian32 ordered
  | sfixed32 => exact lands_taken id rfl meets_readRawLittleEndian32 ordered
  | float => exact lands_taken id rfl meets_readRawLittleEndian32 ordered
  | fixed64 => exact lands_taken id rfl meets_readRawLittleEndian64 ordered
  | sfixed64 => exact lands_taken id rfl meets_readRawLittleEndian64 ordered
  | double => exact lands_taken id rfl meets_readRawLittleEndian64 ordered
  | int32 => exact lands_taken id rfl meets_readRawVarint32 ordered
  | int64 => exact lands_taken id rfl meets_readRawVarint64 ordered
  | sint32 => exact lands_taken _ rfl meets_readRawVarint32 ordered
  | sint64 => exact lands_taken _ rfl meets_readRawVarint64 ordered
  | uint32 => exact lands_taken id rfl meets_readRawVarint32 ordered
  | uint64 => exact lands_taken id rfl meets_readRawVarint64 ordered
  | enum => exact lands_taken id rfl meets_readRawVarint32 ordered
  | bytes =>
      refine (GPBUnknownFieldSet.meets_readRetainedBytes.lands fault_listed ordered).mono ?_
      rintro data t _ ⟨n, inside, rfl, positive, small⟩
      refine ⟨?_, fun absurd => (by cases absurd), small⟩
      rw [ahead_skip, List.length_drop]
      omega
  | string =>
      apply (lands_readRetainedString present ordered).bind
      rintro string t _ ⟨shorter, encodable⟩
      refine lands_pure ⟨shorter, fun _ => rfl, ?_⟩
      rintro v ⟨⟩
      exact encodable

/-- A message of this class, so many levels above the limit. -/
abbrev Whole (classes : Class → GPBDescriptor Class) (levels : Nat) (messageClass : Class)
    (self : GPBMessage Class) : Prop := ProperMessage classes levels messageClass self

theorem Whole.of_fields (whole : Whole classes levels messageClass self)
    {set : GPBMessage Class}
    (proper : ProperFields (Inside classes levels) (classes messageClass) set)
    (same : set.unknownFields = self.unknownFields) : Whole classes levels messageClass set :=
  properMessage_iff.mpr ⟨proper, same ▸ (properMessage_iff.mp whole).2⟩

theorem Foreign.addVarint {descriptor : GPBDescriptor Class} {field : GPBUnknownField}
    {value : BitVec 64} (foreign : Foreign descriptor field)
    (kept : Unrecognized descriptor field.number .varint ∨ Refused descriptor field.number value) :
    Foreign descriptor (field.addVarint value) := by
  constructor
  · intro other member
    rcases List.mem_append.mp member with old | new
    · exact foreign.varints other old
    · obtain rfl := List.mem_singleton.mp new
      exact kept
  · intro format other carries
    refine foreign.others format other ?_
    cases format <;> first | exact absurd rfl other | exact carries

/-- A number that the enumeration refuses is kept. -/
theorem Whole.keepEnumValue (whole : Whole classes levels messageClass self)
    (member : field ∈ (classes messageClass).fields) (plain : field.dataType = .plain .enum)
    {value : BitVec 32}
    (refused : acceptsEnumValue (classes messageClass).fileSyntax field value = false)
    {E : ParseException → Prop} (state : GPBCodedInputStreamState) :
    Lands E (fun set _ => Whole classes levels messageClass set) state
      (self.keepEnumValue field value state) := by
  obtain ⟨proper, unknown⟩ := properMessage_iff.mp whole
  have valid := ((classes messageClass).valid field member).number
  rw [keepEnumValue_eq valid]
  refine lands_pure (properMessage_iff.mpr ⟨proper.setUnknownFields ?_, ?_⟩)
  · apply foreign_addTo proper.foreign
    intro other same foreign
    refine foreign.addVarint (.inr ?_)
    exact ⟨field, member, same.symm, plain, value, rfl, refused⟩
  · have keeps : UnknownFieldOf.KeepsNumber (·.addVarint (value.signExtend 64)) := fun _ => rfl
    exact GPBUnknownFieldSet.proper_addTo unknown valid keeps
      fun _ fit => GPBUnknownFieldSet.proper_addVarint fit _

theorem accepts_of_encodable {value : type.Value} (other : type ≠ .enum)
    (encodable : type.Encodable value) : Accepts fileSyntax field type value := by
  cases type <;> first | exact encodable | exact absurd rfl other

theorem ProperFields.setNone {Sub : Class → GPBMessage Class → Prop}
    {descriptor : GPBDescriptor Class} (proper : ProperFields Sub descriptor self) :
    ProperFields Sub descriptor (self.setValue fileSyntax field type none) :=
  (proper.maybeClearOneof field).filter _

theorem lands_mergeSingleField_plain {merge : Class → GPBMessage Class → Reading (GPBMessage Class)}
    (whole : Whole classes levels messageClass self)
    (member : field ∈ (classes messageClass).fields) (single : field.repeated = false)
    (plain : field.dataType = .plain type) (ordered : Ordered state) :
    Lands (Fault classes) (fun set _ => Whole classes levels messageClass set) state
      (mergeSingleField merge (classes messageClass).fileSyntax field self state) := by
  have proper := (properMessage_iff.mp whole).1
  by_cases isEnum : type = .enum
  · subst isEnum
    rw [mergeSingleField, plain]
    apply (meets_readRawVarint32.lands fault_listed ordered).bind
    rintro value t _ _
    cases accepted : acceptsEnumValue (classes messageClass).fileSyntax field value with
    | false =>
        rw [if_neg Bool.false_ne_true]
        exact whole.keepEnumValue member plain accepted t
    | true =>
        rw [if_pos rfl]
        exact lands_pure (whole.of_fields (proper.setValue member single plain accepted)
          (unknownFields_setValue self _))
  · rw [mergeSingleField_plain plain isEnum]
    apply (lands_readNoTag ⟨messageClass, field, member, plain⟩ ordered).bind
    rintro value t _ ⟨_, _, encodable⟩
    cases value with
    | none => exact lands_pure (whole.of_fields proper.setNone (unknownFields_setValue self none))
    | some value =>
        exact lands_pure (whole.of_fields (proper.setValue member single plain
          (accepts_of_encodable isEnum (encodable value rfl))) (unknownFields_setValue self _))

/-- One value of an array. -/
theorem lands_addReadValue (whole : Whole classes levels messageClass self)
    (member : field ∈ (classes messageClass).fields) (repeated : field.repeated = true)
    (plain : field.dataType = .plain type) (ordered : Ordered state) :
    Lands (Fault classes) (fun set t => Whole classes levels messageClass set ∧
        t.ahead.length < state.ahead.length) state
      (addReadValue (classes messageClass).fileSyntax field type self state) := by
  have proper := (properMessage_iff.mp whole).1
  have added {value : type.Value}
      (accepted : Accepts (classes messageClass).fileSyntax field type value) :
      Whole classes levels messageClass (self.addValues field type [value]) := by
    refine whole.of_fields (proper.addValues member repeated plain (List.cons_ne_nil _ _) ?_) rfl
    intro other inside
    obtain rfl := List.mem_singleton.mp inside
    exact accepted
  by_cases isEnum : type = .enum
  · subst isEnum
    apply (meets_readRawVarint32.lands fault_listed ordered).bind
    rintro value t _ ⟨n, inside, rfl, positive⟩
    have shorter : (state.skip n).ahead.length < state.ahead.length := by
      rw [ahead_skip, List.length_drop]
      omega
    cases accepted : acceptsEnumValue (classes messageClass).fileSyntax field value with
    | false =>
        rw [if_neg Bool.false_ne_true]
        refine (whole.keepEnumValue member plain accepted _).mono ?_
        exact fun _ u follows kept => ⟨kept, Nat.lt_of_le_of_lt follows.shorter shorter⟩
    | true =>
        rw [if_pos rfl]
        exact lands_pure ⟨added accepted, shorter⟩
  · rw [addReadValue_plain isEnum]
    apply (lands_readNoTag ⟨messageClass, field, member, plain⟩ ordered).bind
    rintro value t _ ⟨shorter, _, encodable⟩
    cases value with
    | none => exact lands_throw (.inl (.inr rfl))
    | some value =>
        exact lands_pure ⟨added (accepts_of_encodable isEnum (encodable value rfl)), shorter⟩

theorem lands_readPackedValues (whole : Whole classes levels messageClass self)
    (member : field ∈ (classes messageClass).fields) (repeated : field.repeated = true)
    (plain : field.dataType = .plain type) (packable : type.packable = true)
    (ordered : Ordered state) (enough : state.ahead.length < fuel) :
    Lands (Fault classes) (fun set _ => Whole classes levels messageClass set) state
      (readPackedValues (classes messageClass).fileSyntax field fuel self state) := by
  induction fuel generalizing self state with
  | zero => exact absurd enough (Nat.not_lt_zero _)
  | succ fuel ih =>
      rw [readPackedValues, bind_ok (bytesUntilLimit_ahead ordered)]
      by_cases nothing : state.ahead.length > 0
      · rw [if_pos nothing, plain]
        dsimp only
        rw [if_pos packable]
        apply (lands_addReadValue whole member repeated plain ordered).bind
        rintro set t follows ⟨whole', shorter⟩
        exact ih whole' (follows.ordered ordered) (by omega)
      · rw [if_neg nothing]
        exact lands_pure whole

theorem Beyond.addReadValue (beyond : Beyond state) (packable : type.packable = true)
    (self : GPBMessage Class) :
    ∃ e t, GPBMessage.addReadValue fileSyntax field type self state = .error e t ∧ e.Listed := by
  by_cases isEnum : type = .enum
  · subst isEnum
    obtain ⟨e, t, raised, listed⟩ := beyond.readRawVarint32
    exact ⟨e, t, bind_error raised, listed⟩
  · obtain ⟨e, t, raised, listed⟩ := beyond.readNoTag packable
    rw [addReadValue_plain isEnum]
    exact ⟨e, t, bind_error raised, listed⟩

theorem lands_mergePackedField (whole : Whole classes levels messageClass self)
    (member : field ∈ (classes messageClass).fields) (repeated : field.repeated = true)
    (plain : field.dataType = .plain type) (packable : type.packable = true)
    (ordered : Ordered state) (enough : state.ahead.length < fuel) :
    Lands (Fault classes) (fun set _ => Whole classes levels messageClass set) state
      (mergePackedField fuel (classes messageClass).fileSyntax field self state) := by
  apply (meets_readRawVarint32.lands fault_listed ordered).bind
  rintro length t follows _
  have ordered' := follows.ordered ordered
  have shorter := follows.shorter
  rcases pushLimit_any ordered' length with ⟨n, inside, pushed⟩ | ⟨limit, beyond, pushed⟩ |
    ⟨e, u, raised, listed⟩
  · rw [bind_ok pushed]
    have less : (t.narrowed n).ahead.length < fuel := by
      rw [ahead_narrowed ordered' inside, List.length_take_of_le inside]
      omega
    have values := lands_readPackedValues whole member repeated plain packable
      (ordered'.narrowed inside) less
    refine (values.limited ordered' inside).mono ?_
    rintro set u _ ⟨_, whole'⟩
    exact whole'
  · obtain ⟨fuel, rfl⟩ : ∃ fuel', fuel = fuel' + 1 := ⟨fuel - 1, by omega⟩
    obtain ⟨left, some, counted⟩ := beyond.bytesUntilLimit
    obtain ⟨e, u, raised, listed⟩ :=
      @Beyond.addReadValue _ field (classes messageClass).fileSyntax type _ beyond packable self
    have refused : readPackedValues (classes messageClass).fileSyntax field (fuel + 1) self
        { t with currentLimit := limit } = .error e u := by
      rw [readPackedValues, bind_ok counted, if_pos some, plain]
      dsimp only
      rw [if_pos packable, bind_error raised]
    rw [bind_ok pushed, bind_error refused]
    exact fault_listed e listed
  · rw [bind_error raised]
    exact fault_listed e listed

theorem readMessage_eq (merge : Reading (GPBMessage Class)) :
    readMessage merge = (checkRecursionLimit >>= fun _ => readRawVarint32 >>= fun length =>
      pushLimit (sizeT length) >>= fun oldLimit => nested 0 merge >>= fun message =>
        popLimit oldLimit >>= fun _ => pure message) := by
  simp only [readMessage, nested, bind_assoc, pure_bind]

/-- Beyond the limit, a message is left as it is at the end of the data. -/
theorem Beyond.mergePlainly (beyond : Beyond state) (self : GPBMessage Class) :
    GPBMessage.mergePlainly classes (fuel + 1) messageClass self state = .ok self (state.retag 0) ∨
      ∃ e t, GPBMessage.mergePlainly classes (fuel + 1) messageClass self state = .error e t ∧
        e.Listed := by
  rcases beyond.readTag with ended | ⟨e, t, raised, listed⟩
  · exact .inl (merge_end ended)
  · refine .inr ⟨e, t, ?_, listed⟩
    rw [GPBMessage.mergePlainly, bind_error raised]

/-- One level further down, any bytes make a message or raise. -/
def LandsInside (classes : Class → GPBDescriptor Class) (levels fuel depth : Nat) : Prop :=
  ∀ msgClass existing t, Inside classes levels msgClass existing → Ordered t →
    t.recursionDepth = depth + 1 → t.ahead.length < fuel →
      Lands (Fault classes) (fun message _ => Inside classes levels msgClass message) t
        (mergePlainly classes fuel msgClass existing t)

variable {depth : Nat}

theorem lands_readMessage (lands : LandsInside classes levels fuel depth)
    (inside : depth < kDefaultRecursionLimit → Inside classes levels msgClass existing)
    (ordered : Ordered state) (atDepth : state.recursionDepth = depth)
    (enough : state.ahead.length < fuel) :
    Lands (Fault classes) (fun message _ => Inside classes levels msgClass message) state
      (readMessage (mergePlainly classes fuel msgClass existing) state) := by
  rw [readMessage_eq]
  apply Lands.checked fault_listed
  intro room
  have start := inside (atDepth ▸ room)
  apply (meets_readRawVarint32.lands fault_listed ordered).bind
  rintro length t follows _
  have ordered' := follows.ordered ordered
  have shorter := follows.shorter
  rcases pushLimit_any ordered' length with ⟨n, inside, pushed⟩ | ⟨limit, beyond, pushed⟩ |
    ⟨e, u, raised, listed⟩
  · rw [bind_ok pushed]
    have less : (t.narrowed n).deeper.ahead.length < fuel := by
      rw [ahead_deeper, ahead_narrowed ordered' inside, List.length_take_of_le inside]
      omega
    have deep : (t.narrowed n).deeper.recursionDepth = depth + 1 :=
      congrArg (· + 1) (follows.recursionDepth.trans atDepth)
    have message := lands msgClass existing _ start (ordered'.narrowed inside).deeper deep less
    refine ((message.nested fault_listed).limited ordered' inside).mono ?_
    rintro message u _ ⟨_, _, made⟩
    exact made
  · obtain ⟨fuel, rfl⟩ : ∃ fuel', fuel = fuel' + 1 := ⟨fuel - 1, by omega⟩
    have deep : Beyond { t with currentLimit := limit }.deeper :=
      ⟨beyond.limit, beyond.position, beyond.size⟩
    rw [bind_ok pushed]
    rcases @Beyond.mergePlainly _ classes msgClass fuel _ deep existing with
      merged | ⟨e, u, raised, listed⟩
    · have read : nested 0 (mergePlainly classes (fuel + 1) msgClass existing)
          { t with currentLimit := limit } =
            .ok existing ({ t with currentLimit := limit }.retag 0) := by
        rw [nested, bind_ok (enter_eq _), bind_ok merged, bind_ok (checkLastTagWas_ok (lastTag_retag 0))]
        rfl
      rw [bind_ok read]
      exact ⟨⟨0, Nat.zero_le _, 0, rfl⟩, start⟩
    · have read : nested 0 (mergePlainly classes (fuel + 1) msgClass existing)
          { t with currentLimit := limit } = .error e u := by
        rw [nested, bind_ok (enter_eq _), bind_error raised]
      rw [bind_error read]
      exact fault_listed e listed
  · rw [bind_error raised]
    exact fault_listed e listed

theorem lands_readGroup {number : BitVec 32} (lands : LandsInside classes levels fuel depth)
    (inside : depth < kDefaultRecursionLimit → Inside classes levels msgClass existing)
    (ordered : Ordered state) (atDepth : state.recursionDepth = depth)
    (enough : state.ahead.length < fuel) :
    Lands (Fault classes) (fun message _ => Inside classes levels msgClass message) state
      (readGroup number (mergePlainly classes fuel msgClass existing) state) := by
  apply Lands.checked fault_listed
  intro room
  have start := inside (atDepth ▸ room)
  have deep : state.deeper.recursionDepth = depth + 1 := congrArg (· + 1) atDepth
  refine ((lands msgClass existing _ start ordered.deeper deep enough).nested fault_listed).mono ?_
  rintro message u _ ⟨_, made⟩
  exact made

theorem lands_readInner (lands : LandsInside classes levels fuel depth)
    (inside : depth < kDefaultRecursionLimit → Inside classes levels msgClass existing)
    (ordered : Ordered state) (atDepth : state.recursionDepth = depth)
    (enough : state.ahead.length < fuel) :
    Lands (Fault classes) (fun message _ => Inside classes levels msgClass message) state
      (readInner field (mergePlainly classes fuel msgClass existing) state) := by
  unfold readInner
  cases field.dataType with
  | plain => exact lands_readMessage lands inside ordered atDepth enough
  | message => exact lands_readMessage lands inside ordered atDepth enough
  | group => exact lands_readGroup lands inside ordered atDepth enough

theorem inside_init (room : depth + levels = kDefaultRecursionLimit) (msgClass : Class)
    (below : depth < kDefaultRecursionLimit) : Inside classes levels msgClass init := by
  cases levels with
  | zero => omega
  | succ level => exact proper_init classes level msgClass

theorem lands_mergeSingleField_message (lands : LandsInside classes levels fuel depth)
    (room : depth + levels = kDefaultRecursionLimit) (whole : Whole classes levels messageClass self)
    (member : field ∈ (classes messageClass).fields) (single : field.repeated = false)
    (isMessage : field.dataType.IsMessage msgClass) (ordered : Ordered state)
    (atDepth : state.recursionDepth = depth) (enough : state.ahead.length < fuel) :
    Lands (Fault classes) (fun set _ => Whole classes levels messageClass set) state
      (mergeSingleField (mergePlainly classes fuel) (classes messageClass).fileSyntax field self
        state) := by
  have proper := (properMessage_iff.mp whole).1
  rw [mergeSingleField_message isMessage]
  rcases proper.getMessage member single isMessage with absent | ⟨existing, stored, before⟩
  · rw [absent]
    apply (lands_readInner lands (inside_init room msgClass) ordered atDepth enough).bind
    intro message t _ made
    exact lands_pure (whole.of_fields (proper.setMessage member single isMessage made)
      (unknownFields_maybeClearOneof self field))
  · rw [stored]
    apply (lands_readInner lands (fun _ => before) ordered atDepth enough).bind
    intro message t _ made
    exact lands_pure
      (whole.of_fields (proper.replaceMessage member single isMessage stored made) rfl)

theorem lands_mergeNotPackedField_message (lands : LandsInside classes levels fuel depth)
    (room : depth + levels = kDefaultRecursionLimit) (whole : Whole classes levels messageClass self)
    (member : field ∈ (classes messageClass).fields) (repeated : field.repeated = true)
    (isMessage : field.dataType.IsMessage msgClass) (ordered : Ordered state)
    (atDepth : state.recursionDepth = depth) (enough : state.ahead.length < fuel) :
    Lands (Fault classes) (fun set _ => Whole classes levels messageClass set) state
      (mergeNotPackedField (mergePlainly classes fuel) (classes messageClass).fileSyntax field self
        state) := by
  have proper := (properMessage_iff.mp whole).1
  rw [mergeNotPackedField_message isMessage]
  apply (lands_readInner lands (inside_init room msgClass) ordered atDepth enough).bind
  intro message t _ made
  refine lands_pure (whole.of_fields (proper.addMessages member repeated isMessage
    (List.cons_ne_nil _ _) ?_) rfl)
  intro other inside
  obtain rfl := List.mem_singleton.mp inside
  exact made

theorem lands_mergeKnownField (lands : LandsInside classes levels fuel depth)
    (room : depth + levels = kDefaultRecursionLimit) (whole : Whole classes levels messageClass self)
    {isPacked : Bool} (found : Found (classes messageClass) tag field isPacked)
    (ordered : Ordered state) (atDepth : state.recursionDepth = depth)
    (enough : state.ahead.length < fuel) :
    Lands (Fault classes) (fun set _ => Whole classes levels messageClass set) state
      (mergeKnownField (mergePlainly classes fuel) fuel (classes messageClass).fileSyntax field
        isPacked self state) := by
  have member := found.member
  rw [mergeKnownField]
  cases repeated : field.repeated with
  | false =>
      change Lands _ _ _ (mergeSingleField _ _ _ _ _)
      cases dataType : field.dataType with
      | plain type => exact lands_mergeSingleField_plain whole member repeated dataType ordered
      | message msgClass =>
          exact lands_mergeSingleField_message lands room whole member repeated
            (isMessage_iff.mpr (.inl dataType)) ordered atDepth enough
      | group msgClass =>
          exact lands_mergeSingleField_message lands room whole member repeated
            (isMessage_iff.mpr (.inr dataType)) ordered atDepth enough
  | true =>
      cases isPacked with
      | true =>
          obtain ⟨_, type, plain, packable⟩ := found.packed rfl
          exact lands_mergePackedField whole member repeated plain packable ordered enough
      | false =>
          change Lands _ _ _ (mergeNotPackedField _ _ _ _ _)
          cases dataType : field.dataType with
          | plain type =>
              rw [mergeNotPackedField, dataType]
              refine (lands_addReadValue whole member repeated dataType ordered).mono ?_
              exact fun _ _ _ added => added.1
          | message msgClass =>
              exact lands_mergeNotPackedField_message lands room whole member repeated
                (isMessage_iff.mpr (.inl dataType)) ordered atDepth enough
          | group msgClass =>
              exact lands_mergeNotPackedField_message lands room whole member repeated
                (isMessage_iff.mpr (.inr dataType)) ordered atDepth enough

theorem ok_of_bind {α β : Type} {read : Reading α} {next : α → Reading β} {b : β}
    {u : GPBCodedInputStreamState} (outcome : (read >>= next) state = .ok b u) :
    ∃ a t, read state = .ok a t ∧ next a t = .ok b u := by
  cases first : read state with
  | error e t =>
      rw [bind_error first] at outcome
      cases outcome
  | ok a t =>
      rw [bind_ok first] at outcome
      exact ⟨a, t, rfl, outcome⟩

/-- `add` adds a value of this format, other than a varint. -/
structure Adds (format : GPBWireFormat) (add : GPBUnknownField → GPBUnknownField) : Prop where
  number : UnknownFieldOf.KeepsNumber add
  varints : ∀ field, (add field).varintList = field.varintList
  others : ∀ field other, other ≠ format → Carries (add field) other → Carries field other

theorem adds_fixed32 (value : BitVec 32) : Adds .fixed32 (·.addFixed32 value) where
  number _ := rfl
  varints _ := rfl
  others _ other differ carries := by
    cases other <;> first | exact absurd rfl differ | exact carries

theorem adds_fixed64 (value : BitVec 64) : Adds .fixed64 (·.addFixed64 value) where
  number _ := rfl
  varints _ := rfl
  others _ other differ carries := by
    cases other <;> first | exact absurd rfl differ | exact carries

theorem adds_lengthDelimited (value : NSData) :
    Adds .lengthDelimited (·.addLengthDelimited value) where
  number _ := rfl
  varints _ := rfl
  others _ other differ carries := by
    cases other <;> first | exact absurd rfl differ | exact carries

theorem adds_group (value : GPBUnknownFieldSet) : Adds .startGroup (·.addGroup value) where
  number _ := rfl
  varints _ := rfl
  others _ other differ carries := by
    cases other <;> first | exact absurd rfl differ | exact carries

theorem Adds.foreign {descriptor : GPBDescriptor Class} {number : BitVec 32} {format : GPBWireFormat}
    {add : GPBUnknownField → GPBUnknownField} (adds : Adds format add)
    {unknownFields : GPBUnknownFieldSet} (unrecognized : Unrecognized descriptor number format)
    (foreign : ∀ field ∈ unknownFields.fields, Foreign descriptor field) :
    ∀ field ∈ (unknownFields.addTo number add).fields, Foreign descriptor field := by
  apply foreign_addTo foreign
  intro field same kept
  have number' := adds.number field
  constructor
  · intro value member
    rw [adds.varints field] at member
    rw [number']
    exact kept.varints value member
  · intro other notVarint carries
    rw [number']
    by_cases here : other = format
    · subst here
      rwa [same]
    · exact kept.others other notVarint (adds.others field other here carries)

/-- What is added to the unknown fields under a tag that is not recognized is foreign. -/
theorem foreign_field {descriptor : GPBDescriptor Class} {number : BitVec 32} {format : GPBWireFormat}
    {merge : GPBUnknownFieldSet → Reading GPBUnknownFieldSet} {unknownFields : GPBUnknownFieldSet}
    {result : Bool × GPBUnknownFieldSet} {u : GPBCodedInputStreamState}
    (valid : GPBWireFormat.FieldNumber number) (unrecognized : Unrecognized descriptor number format)
    (foreign : ∀ field ∈ unknownFields.fields, Foreign descriptor field)
    (outcome : GPBUnknownFieldSet.mergeFieldFrom merge (GPBWireFormat.makeTag number format)
      unknownFields state = .ok result u) :
    ∀ field ∈ result.2.fields, Foreign descriptor field := by
  rw [GPBUnknownFieldSet.mergeFieldFrom_makeTag valid] at outcome
  cases format with
  | varint =>
      obtain ⟨value, t, _, rest⟩ := ok_of_bind outcome
      cases rest
      dsimp only
      apply foreign_addTo foreign
      intro field same kept
      refine kept.addVarint (.inl ?_)
      rwa [same]
  | fixed64 =>
      obtain ⟨value, t, _, rest⟩ := ok_of_bind outcome
      cases rest
      exact (adds_fixed64 value).foreign unrecognized foreign
  | fixed32 =>
      obtain ⟨value, t, _, rest⟩ := ok_of_bind outcome
      cases rest
      exact (adds_fixed32 value).foreign unrecognized foreign
  | lengthDelimited =>
      obtain ⟨data, t, _, rest⟩ := ok_of_bind outcome
      cases data with
      | none => cases rest
      | some data =>
          cases rest
          exact (adds_lengthDelimited data).foreign unrecognized foreign
  | startGroup =>
      obtain ⟨group, t, _, rest⟩ := ok_of_bind outcome
      cases rest
      exact (adds_group group).foreign unrecognized foreign
  | endGroup =>
      cases outcome
      exact foreign

theorem lands_parseUnknownField (room : depth + levels = kDefaultRecursionLimit)
    (whole : Whole classes levels messageClass self) (named : GPBWireFormat.isValidTag tag = true)
    (valid : GPBWireFormat.FieldNumber (GPBWireFormat.getTagFieldNumber tag))
    (unknown : fieldOfTag (classes messageClass) tag = none) (ordered : Ordered state)
    (atDepth : state.recursionDepth = depth) (enough : state.ahead.length < fuel) :
    Lands (Fault classes) (fun result _ => Whole classes levels messageClass result.2) state
      (parseUnknownField fuel tag self state) := by
  obtain ⟨proper, unknownFields⟩ := properMessage_iff.mp whole
  obtain ⟨format, isFormat⟩ := GPBWireFormat.getTagWireType_of_isValidTag named
  have parts := GPBWireFormat.makeTag_parts isFormat
  rw [parseUnknownField]
  split_ifs with ended
  · exact lands_pure whole
  · have field : Lands Refusal (fun result _ => Proper levels result.2) state
        (GPBUnknownFieldSet.mergeFieldFrom (GPBUnknownFieldSet.mergeFromCodedInputStream fuel) tag
          self.unknownFields state) := by
      refine GPBUnknownFieldSet.lands_field ordered unknownFields named valid (atDepth ▸ room) ?_
      rintro level rfl
      have deep : state.deeper.recursionDepth + level = kDefaultRecursionLimit := by
        rw [recursionDepth_deeper]
        omega
      exact GPBUnknownFieldSet.lands_set ordered.deeper enough deep
        (GPBUnknownFieldSet.proper_empty level)
    have both := field.also fun result t outcome => by
      rw [← parts] at outcome unknown
      exact foreign_field valid unknown proper.foreign outcome
    apply (both.raises fun e refused => .inl refused).bind
    rintro ⟨more, set⟩ t _ ⟨properSet, foreign⟩
    exact lands_pure (properMessage_iff.mpr ⟨proper.setUnknownFields foreign, properSet⟩)

/-- A round of the loop. -/
def mergeRound (classes : Class → GPBDescriptor Class) (messageClass : Class) (fuel : Nat)
    (tag : BitVec 32) (self : GPBMessage Class) : Reading (Bool × GPBMessage Class) :=
  match fieldOfTag (classes messageClass) tag with
  | some (field, isPacked) => do
      return (true, ← mergeKnownField (mergePlainly classes fuel) fuel
        (classes messageClass).fileSyntax field isPacked self)
  | none => parseUnknownField fuel tag self

theorem mergePlainly_rounds (fuel : Nat) (self : GPBMessage Class) :
    mergePlainly classes (fuel + 1) messageClass self = (readTag >>= fun tag =>
      if tag = 0 then pure self
      else mergeRound classes messageClass fuel tag self >>= fun result =>
        if result.1 then mergePlainly classes fuel messageClass result.2 else pure result.2) := by
  rw [mergePlainly]
  congr 1
  funext tag
  split_ifs with ended
  · rfl
  · rw [mergeRound]
    rcases fieldOfTag (classes messageClass) tag with _ | ⟨field, isPacked⟩
    · rfl
    · simp only [bind_assoc, pure_bind, if_true]

theorem lands_mergeRound (lands : LandsInside classes levels fuel depth)
    (room : depth + levels = kDefaultRecursionLimit) (whole : Whole classes levels messageClass self)
    (named : GPBWireFormat.isValidTag tag = true)
    (valid : GPBWireFormat.FieldNumber (GPBWireFormat.getTagFieldNumber tag)) (ordered : Ordered state)
    (atDepth : state.recursionDepth = depth) (enough : state.ahead.length < fuel) :
    Lands (Fault classes) (fun result _ => Whole classes levels messageClass result.2) state
      (mergeRound classes messageClass fuel tag self state) := by
  rw [mergeRound]
  cases outcome : fieldOfTag (classes messageClass) tag with
  | none => exact lands_parseUnknownField room whole named valid outcome ordered atDepth enough
  | some found =>
      obtain ⟨field, isPacked⟩ := found
      apply (lands_mergeKnownField lands room whole (found_of_fieldOfTag outcome) ordered atDepth
        enough).bind
      exact fun _ _ _ whole' => lands_pure whole'

theorem lands_inside (room : depth + levels = kDefaultRecursionLimit) :
    ∀ fuel, LandsInside classes levels fuel depth := by
  induction levels generalizing depth with
  | zero => exact fun _ _ _ _ absurd => absurd.elim
  | succ level ih =>
      intro fuel msgClass existing t whole ordered atDepth enough
      have space : depth + 1 + level = kDefaultRecursionLimit := by omega
      apply lands_rounds (fun fuel self => mergePlainly classes fuel msgClass self)
        (mergeRound classes msgClass) fault_listed mergePlainly_rounds ?_ ordered atDepth enough whole
      intro fuel tag self state ordered' atDepth' enough' named valid whole'
      exact lands_mergeRound (ih space fuel) space whole' named valid ordered' atDepth' enough'

/-- Any bytes: the loop ends within the limit, with a proper message or one of the exceptions. -/
theorem lands_message (room : depth + levels = kDefaultRecursionLimit)
    (whole : Whole classes levels messageClass self) (ordered : Ordered state)
    (atDepth : state.recursionDepth = depth) (enough : state.ahead.length < fuel) :
    Lands (Fault classes) (fun set _ => Whole classes levels messageClass set) state
      (mergePlainly classes fuel messageClass self state) := by
  apply lands_rounds (fun fuel self => mergePlainly classes fuel messageClass self)
    (mergeRound classes messageClass) fault_listed mergePlainly_rounds ?_ ordered atDepth enough whole
  intro fuel tag self state ordered' atDepth' enough' named valid whole'
  exact lands_mergeRound (lands_inside room fuel) room whole' named valid ordered' atDepth' enough'

theorem mergeFromData_lands {data : NSData} (small : data.length < 2 ^ 62)
    (proper : ProperMessage classes kDefaultRecursionLimit messageClass self) :
    match mergeFromData classes messageClass self data with
    | .ok set => ProperMessage classes kDefaultRecursionLimit messageClass set
    | .error e => Fault classes e := by
  have enough : (initWithData data).ahead.length < data.length + 1 := by
    rw [ahead_initWithData]
    exact Nat.lt_succ_self _
  have parsed := lands_message (Nat.zero_add kDefaultRecursionLimit) proper
    (ordered_initWithData small) rfl enough
  rw [mergeFromData, mergeFromCodedInputStream_plainly]
  cases outcome : mergePlainly classes (data.length + 1) messageClass self (initWithData data) with
  | error e t =>
      rw [bind_error outcome]
      rw [outcome] at parsed
      exact parsed
  | ok set t =>
      rw [bind_ok outcome]
      rw [outcome] at parsed
      by_cases atEnd : t.lastTag = 0
      · rw [bind_ok (checkLastTagWas_ok atEnd)]
        exact parsed.2
      · have raised : checkLastTagWas 0 t = .error (.codedInputStream .invalidTag
            (some "Unexpected tag read")) t := if_pos atEnd
        rw [bind_error raised]
        exact fault_listed _ ⟨_, _, rfl⟩

/-- What any data come to: a proper message whose own data are parsed again, into it unless a text
begins with a byte order mark, or a fault. -/
def Settled (classes : Class → GPBDescriptor Class) (messageClass : Class) :
    Except ParseException (GPBMessage Class) → Prop
  | .ok set => ProperMessage classes kDefaultRecursionLimit messageClass set ∧
      (set.serializedSize < 2 ^ 31 → ∃ data again, set.data = some data ∧
        mergeFromData classes messageClass init data = .ok again ∧
          ProperMessage classes kDefaultRecursionLimit messageClass again ∧
            (set.Unmarked → again = set))
  | .error e => Fault classes e

/-- Any data are merged into a proper message, or raise; what they raise is for the caller, unless a
class has strings. -/
theorem parsed_any {data : NSData} (small : data.length < 2 ^ 62)
    (proper : ProperMessage classes kDefaultRecursionLimit messageClass self) :
    Settled classes messageClass (mergeFromData classes messageClass self data) := by
  have parsed := mergeFromData_lands small proper
  cases outcome : mergeFromData classes messageClass self data with
  | error e =>
      rw [outcome] at parsed
      exact parsed
  | ok set =>
      rw [outcome] at parsed
      refine ⟨parsed, fun small' => ?_⟩
      obtain ⟨again, back, properAgain, same⟩ := mergeFromData_encoding parsed small'
      exact ⟨set.encoding, again, data_small small', back, properAgain, same⟩

/-- A part with a field that it does not know, then a part with another text. -/
theorem parsed_any_sample :
    Settled sampleClasses false (mergeFromData sampleClasses false sampleMessage
      [0x1A, 0x02, 0x10, 0x05, 0x1A, 0x03, 0x0A, 0x01, 0x61]) :=
  parsed_any (by decide) proper_sampleMessage

theorem readRetainedString_negative {n : Nat} (bound : n < 2 ^ 64)
    (negative : (BitVec.ofNat 32 n).toInt < 0) (ordered : Ordered state) {rest : NSData}
    (ahead : state.ahead = Varints.encode n ++ rest) :
    ∃ t, readRetainedString state = .error
      (negativeLength (BitVec.ofNat 32 n) (state.bufferPos + (Varints.encode n).length)) t := by
  have read := reads_readRawVarint32 bound state ordered rest ahead
  have nonzero : BitVec.ofNat 32 n ≠ 0 := by
    intro zero
    rw [zero] at negative
    exact absurd negative (by decide)
  obtain ⟨t, raised⟩ := readRaw_negative negative (ordered.skip (inside_of_ahead ahead))
  rw [readRetainedString, bind_ok read, if_neg nonzero]
  exact ⟨t, bind_error raised⟩

theorem mergeKnownField_negative {merge : Class → GPBMessage Class → Reading (GPBMessage Class)}
    (valid : field.Valid) (string : field.dataType = .plain .string) {e : ParseException}
    {t : GPBCodedInputStreamState} (raised : readRetainedString state = .error e t) :
    mergeKnownField merge fuel fileSyntax field field.isPackable self state = .error e t := by
  have notPacked : field.isPackable = false := by
    cases packable : field.isPackable with
    | false => rfl
    | true =>
        obtain ⟨_, type, plain, packed⟩ := valid.packable packable
        rw [string] at plain
        cases plain
        cases packed
  have value : readNoTag .string state = .error e t := bind_error raised
  rw [mergeKnownField, notPacked]
  cases field.repeated with
  | false =>
      change mergeSingleField _ _ _ _ _ = _
      rw [mergeSingleField_plain string (by decide)]
      exact bind_error value
  | true =>
      change mergeNotPackedField _ _ _ _ _ = _
      rw [mergeNotPackedField, string]
      change addReadValue _ _ _ _ _ = _
      rw [addReadValue_plain (by decide)]
      exact bind_error value

theorem mergePlainly_negative (member : field ∈ (classes messageClass).fields)
    (string : field.dataType = .plain .string) {n : Nat} (bound : n < 2 ^ 64)
    (negative : (BitVec.ofNat 32 n).toInt < 0) (ordered : Ordered state) {rest : NSData}
    (ahead : state.ahead = Varints.encode field.tag.toNat ++ (Varints.encode n ++ rest))
    {position : Nat} (here : state.bufferPos = position) (fuel : Nat) (self : GPBMessage Class) :
    ∃ t, mergePlainly classes (fuel + 1) messageClass self state =
      .error (negativeLength (BitVec.ofNat 32 n) (position +
        (Varints.encode field.tag.toNat).length + (Varints.encode n).length)) t := by
  subst here
  have valid := (classes messageClass).valid field member
  have nonzero : field.tag ≠ 0 := GPBWireFormat.makeTag_ne_zero valid.number _
  have tagged : readTag state = .ok field.tag _ := readTag_tagBytes ordered valid.number _ ahead
  obtain ⟨t, raised⟩ := readRetainedString_negative bound negative
    ((ordered.skip (inside_of_ahead ahead)).retag field.tag) (ahead_behind field.tag ahead)
  rw [mergePlainly, bind_ok tagged, if_neg nonzero, fieldOfTag_tag member]
  exact ⟨t, bind_error (mergeKnownField_negative valid string raised)⟩

/-- Behind the data of any message, a string of a negative length is read outside the data if the
length reaches back no further than to their beginning, and is refused otherwise. -/
theorem parsed_negative_string (member : field ∈ (classes messageClass).fields)
    (string : field.dataType = .plain .string)
    (proper : ProperMessage classes kDefaultRecursionLimit messageClass self)
    (small : self.serializedSize < 2 ^ 31) {n : Nat} (bound : n < 2 ^ 64)
    (negative : (BitVec.ofNat 32 n).toInt < 0) {rest : NSData} (room : rest.length < 2 ^ 61) :
    ∃ data, self.data = some data ∧
      mergeFromData classes messageClass init
          (data ++ (Varints.encode field.tag.toNat ++ (Varints.encode n ++ rest))) =
        .error (negativeLength (BitVec.ofNat 32 n)
          (data.length + (Varints.encode field.tag.toNat).length + (Varints.encode n).length)) := by
  refine ⟨self.encoding, data_small small, ?_⟩
  have length := encoding_length small
  have tagLength : (Varints.encode field.tag.toNat).length ≤ 10 :=
    (Varints.encode_length_le_iff _ 9).mpr (Nat.lt_trans field.tag.isLt (by decide))
  have sizeLength : (Varints.encode n).length ≤ 10 :=
    (Varints.encode_length_le_iff n 9).mpr (Nat.lt_trans bound (by decide))
  obtain ⟨set, _, leads, _⟩ :=
    leads_small (proper_init classes kDefaultRecursionLimit messageClass) proper small
  generalize whole : self.encoding ++ (Varints.encode field.tag.toNat ++ (Varints.encode n ++ rest)) =
    data
  have count : data.length = self.encoding.length + (Varints.encode field.tag.toNat).length +
      (Varints.encode n).length + rest.length := by
    simp only [← whole, List.length_append, Nat.add_assoc]
  have ordered : Ordered (initWithData data) := ordered_initWithData (by omega)
  have ahead : (initWithData data).ahead = self.encoding ++ (Varints.encode field.tag.toNat ++
      (Varints.encode n ++ rest)) := (ahead_initWithData data).trans whole.symm
  have start : (initWithData data).bufferPos + self.encoding.length = self.encoding.length :=
    Nat.zero_add _
  have enough : self.encoding.length < data.length + 1 := by omega
  have raises := leads.raises ordered rfl ahead enough () fun fuel _ tag =>
    mergePlainly_negative member string bound negative
      ((ordered.skip (inside_of_ahead ahead)).retag tag) (ahead_behind tag ahead) start fuel set
  obtain ⟨t, raised⟩ := raises
  have raised : mergePlainly classes (data.length + 1) messageClass init (initWithData data) = _ :=
    raised
  rw [mergeFromData, mergeFromCodedInputStream_plainly, bind_error raised]

/-- The length is minus one. -/
theorem parsed_negative_string_sample :
    ∃ data, samplePart.data = some data ∧
      mergeFromData sampleClasses true init
          (data ++ (Varints.encode textField.tag.toNat ++ (Varints.encode (2 ^ 64 - 1) ++ []))) =
        .error (negativeLength (BitVec.ofNat 32 (2 ^ 64 - 1))
          (data.length + (Varints.encode textField.tag.toNat).length +
            (Varints.encode (2 ^ 64 - 1)).length)) :=
  parsed_negative_string List.mem_cons_self rfl (proper_samplePart kDefaultRecursionLimit)
    (by decide) (by decide) (by decide) (by decide)

end GPBMessage
end LeptosMusic
