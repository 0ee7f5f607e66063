import LeptosMusic.ProperMessages

/-!
# Merging messages

Merging a proper message into another one never raises, and the outcome is proper. Merged into a new
message, in whatever order the fields come, a message is copied.
-/
namespace LeptosMusic
open KeyedLists (alter lookup Sorted)

namespace GPBMessage
open GPBUnknownFieldSet (Carries Proper)

variable {Class : Type} {classes : Class → GPBDescriptor Class} {messageClass msgClass : Class}
  {levels : Nat} {Sub : Class → GPBMessage Class → Prop} {descriptor : GPBDescriptor Class}
  {field : GPBFieldDescriptor Class} {storage : StorageOf (GPBMessage Class)}
  {self other set existing message : GPBMessage Class}

theorem isMessage_iff {dataType : GPBDataType Class} :
    dataType.IsMessage msgClass ↔ dataType = .message msgClass ∨ dataType = .group msgClass := by
  constructor
  · intro isMessage
    cases isMessage with
    | message => exact .inl rfl
    | group => exact .inr rfl
  · rintro (rfl | rfl)
    · exact .message
    · exact .group

/-- A field of a message holds one, or is not set. -/
theorem ProperFields.getMessage (proper : ProperFields Sub descriptor self)
    (member : field ∈ descriptor.fields) (single : field.repeated = false)
    (isMessage : field.dataType.IsMessage msgClass) :
    self.getStorage field = none ∨
      ∃ existing, self.getStorage field = some (.message existing) ∧ Sub msgClass existing := by
  cases stored : self.getStorage field with
  | none => exact .inl rfl
  | some storage =>
      cases proper.getStorage member stored with
      | value _ plain =>
          rcases isMessage_iff.mp isMessage with same | same <;> rw [plain] at same <;> cases same
      | array repeated =>
          rw [single] at repeated
          cases repeated
      | messages repeated =>
          rw [single] at repeated
          cases repeated
      | message _ isMessage' inner =>
          obtain rfl := IsMessage.unique isMessage isMessage'
          exact .inr ⟨_, rfl, inner⟩

/-- Another message in place of the one that is there. -/
theorem ProperFields.replaceMessage (proper : ProperFields Sub descriptor self)
    (member : field ∈ descriptor.fields) (single : field.repeated = false)
    (isMessage : field.dataType.IsMessage msgClass)
    (stored : self.getStorage field = some (.message existing)) (inner : Sub msgClass set) :
    ProperFields Sub descriptor (self.setStorage field (.message set)) := by
  refine proper.store member (.message single isMessage inner) ?_
  intro other inside oneof same same'
  obtain ⟨old, found, _⟩ := Option.map_eq_some_iff.mp stored
  have keyed : key old = field.number.toNat := KeyedLists.key_of_lookup found
  have inside' := KeyedLists.mem_of_lookup found
  have declared := eq_of_number (proper.declared old inside') member (BitVec.eq_of_toNat_eq keyed)
  rw [← keyed]
  exact proper.oneofs other inside old inside' oneof same' (declared ▸ same)

theorem mergeField_existing (stored : self.getStorage field = some (.message existing))
    (isMessage : field.dataType.IsMessage msgClass)
    (merged : mergeFrom classes msgClass existing message = .ok set) :
    mergeField classes messageClass self ⟨field, .message message⟩ =
      .ok (self.setStorage field (.message set)) := by
  rw [mergeField, stored]
  rcases isMessage_iff.mp isMessage with same | same
  · rw [same]
    dsimp only
    rw [merged]
    rfl
  · rw [same]
    dsimp only
    rw [merged]
    rfl

theorem mergeField_new (absent : self.getStorage field = none) :
    mergeField classes messageClass self ⟨field, .message message⟩ =
      .ok (self.setMessage field message) := by
  rw [mergeField, absent]
  rfl

/-- Messages of the class `Sub` names can be merged. -/
def Merges (classes : Class → GPBDescriptor Class) (Sub : Class → GPBMessage Class → Prop) : Prop :=
  ∀ msgClass existing message, Sub msgClass existing → Sub msgClass message →
    ∃ set, mergeFrom classes msgClass existing message = .ok set ∧ Sub msgClass set

theorem ProperFields.mergeField (merges : Merges classes Sub)
    (proper : ProperFields Sub (classes messageClass) self)
    (member : field ∈ (classes messageClass).fields)
    (fits : Fits Sub (classes messageClass).fileSyntax field storage) :
    ∃ set, GPBMessage.mergeField classes messageClass self ⟨field, storage⟩ = .ok set ∧
      ProperFields Sub (classes messageClass) set ∧ set.unknownFields = self.unknownFields := by
  cases fits with
  | value single plain accepted set =>
      refine ⟨_, by rw [GPBMessage.mergeField]; rfl, proper.setValue member single plain accepted, ?_⟩
      rw [GPBMessage.setValue, if_pos set]
      exact unknownFields_maybeClearOneof self field
  | array repeated plain nonempty accepted =>
      exact ⟨_, by rw [GPBMessage.mergeField]; rfl,
        proper.addValues member repeated plain nonempty accepted, rfl⟩
  | messages repeated isMessage nonempty inner =>
      exact ⟨_, by rw [GPBMessage.mergeField]; rfl,
        proper.addMessages member repeated isMessage nonempty inner, rfl⟩
  | message single isMessage inner =>
      rcases proper.getMessage member single isMessage with absent | ⟨existing, stored, before⟩
      · exact ⟨_, mergeField_new absent, proper.setMessage member single isMessage inner,
          unknownFields_maybeClearOneof self field⟩
      · obtain ⟨set, merged, after⟩ := merges _ existing _ before inner
        exact ⟨_, mergeField_existing stored isMessage merged,
          proper.replaceMessage member single isMessage stored after, rfl⟩

theorem ProperFields.mergeFields (merges : Merges classes Sub)
    {fields : List (FieldOf Class (GPBMessage Class))}
    (proper : ProperFields Sub (classes messageClass) self)
    (declared : ∀ field ∈ fields, field.descriptor ∈ (classes messageClass).fields)
    (fits : ∀ field ∈ fields,
      Fits Sub (classes messageClass).fileSyntax field.descriptor field.storage) :
    ∃ set, GPBMessage.mergeFields classes messageClass self fields = .ok set ∧
      ProperFields Sub (classes messageClass) set ∧ set.unknownFields = self.unknownFields := by
  induction fields generalizing self with
  | nil => exact ⟨self, by rw [GPBMessage.mergeFields]; rfl, proper, rfl⟩
  | cons field fields ih =>
      obtain ⟨next, first, proper', same⟩ := proper.mergeField merges
        (declared field List.mem_cons_self) (fits field List.mem_cons_self)
      obtain ⟨set, rest, proper'', same'⟩ := ih proper'
        (fun other member => declared other (List.mem_cons_of_mem field member))
        (fun other member => fits other (List.mem_cons_of_mem field member))
      refine ⟨set, ?_, proper'', same'.trans same⟩
      rw [GPBMessage.mergeFields, first]
      exact rest

theorem Carries.of_mergeFromField {field other : GPBUnknownField} {format : GPBWireFormat}
    (carries : Carries (field.mergeFromField other) format) :
    Carries field format ∨ Carries other format := by
  cases format <;>
    simp only [Carries, UnknownFieldOf.mergeFromField, ne_eq, List.append_eq_nil_iff] at carries ⊢ <;>
    tauto

theorem Foreign.mergeFromField {field other : GPBUnknownField} (foreign : Foreign descriptor field)
    (foreign' : Foreign descriptor other) (same : other.number = field.number) :
    Foreign descriptor (field.mergeFromField other) := by
  have others := foreign'.others
  have varints := foreign'.varints
  rw [same] at others varints
  constructor
  · intro value member
    exact (List.mem_append.mp member).elim (foreign.varints value) (varints value)
  · intro format other carries
    exact (Carries.of_mergeFromField carries).elim (foreign.others format other) (others format other)

theorem foreign_new (descriptor : GPBDescriptor Class) (number : BitVec 32) :
    Foreign descriptor (UnknownFieldOf.initWithNumber number) := by
  constructor
  · intro value member
    cases member
  · intro format _ carries
    cases format <;> first | exact absurd rfl carries | exact carries.elim

/-- Adding to an unknown field of this number. -/
theorem foreign_addTo {self : GPBUnknownFieldSet} {number : BitVec 32}
    {add : GPBUnknownField → GPBUnknownField}
    (foreign : ∀ field ∈ self.fields, Foreign descriptor field)
    (adds : ∀ field, field.number = number → Foreign descriptor field → Foreign descriptor (add field)) :
    ∀ field ∈ (self.addTo number add).fields, Foreign descriptor field := by
  intro field member
  rcases KeyedLists.mem_alter member with rfl | ⟨old, inside, keyed, rfl⟩ | old
  · exact adds _ rfl (foreign_new descriptor number)
  · exact adds old (BitVec.eq_of_toInt_eq keyed) (foreign old inside)
  · exact foreign field old

theorem foreign_merged {self other : GPBUnknownFieldSet}
    (foreign : ∀ field ∈ self.fields, Foreign descriptor field)
    (foreign' : ∀ field ∈ other.fields, Foreign descriptor field) :
    ∀ field ∈ (self.merged other).fields, Foreign descriptor field := by
  obtain ⟨others⟩ := other
  change ∀ field ∈ others, _ at foreign'
  change ∀ field ∈ (others.foldl _ self).fields, _
  induction others generalizing self with
  | nil => exact foreign
  | cons other others ih =>
      apply ih
      · apply foreign_addTo foreign
        intro field same kept
        exact kept.mergeFromField (foreign' other List.mem_cons_self) same.symm
      · exact fun field member => foreign' field (List.mem_cons_of_mem other member)

theorem ProperFields.setUnknownFields {unknownFields : GPBUnknownFieldSet}
    (proper : ProperFields Sub descriptor self)
    (foreign : ∀ field ∈ unknownFields.fields, Foreign descriptor field) :
    ProperFields Sub descriptor (self.setUnknownFields unknownFields) :=
  ⟨proper.sorted, proper.declared, proper.fits, proper.oneofs, foreign⟩

theorem mergeFrom_eq (merged : mergeFields classes messageClass self other.fields = .ok set)
    (proper : Proper levels other.unknownFields) :
    mergeFrom classes messageClass self other =
      .ok (set.setUnknownFields (set.unknownFields.merged other.unknownFields)) := by
  obtain ⟨fields, unknownFields⟩ := other
  change mergeFields classes messageClass self fields = _ at merged
  change Proper levels unknownFields at proper
  rw [mergeFrom, merged]
  change (do
    let unknownFields ← set.unknownFields.mergeUnknownFields unknownFields
    pure (set.setUnknownFields unknownFields) : Except ParseException _) = _
  rw [GPBUnknownFieldSet.mergeUnknownFields_eq proper]
  rfl

theorem merges_of_inside (merges : Merges classes (Inside classes levels)) :
    Merges classes (ProperMessage classes levels) := by
  intro messageClass self other proper proper'
  obtain ⟨fields, unknown⟩ := properMessage_iff.mp proper
  obtain ⟨fields', unknown'⟩ := properMessage_iff.mp proper'
  obtain ⟨set, merged, properSet, same⟩ := fields.mergeFields merges fields'.declared fields'.fits
  refine ⟨_, mergeFrom_eq merged unknown', properMessage_iff.mpr ⟨?_, ?_⟩⟩
  · exact properSet.setUnknownFields (foreign_merged properSet.foreign fields'.foreign)
  · rw [same]
    exact GPBUnknownFieldSet.proper_merged unknown unknown'

theorem merges_inside (classes : Class → GPBDescriptor Class) (levels : Nat) :
    Merges classes (Inside classes levels) := by
  induction levels with
  | zero => exact fun _ _ _ absurd => absurd.elim
  | succ levels ih => exact merges_of_inside ih

/-- A proper message can be merged into a proper message of its class. -/
theorem merges_proper (classes : Class → GPBDescriptor Class) (levels : Nat) :
    Merges classes (ProperMessage classes levels) := merges_of_inside (merges_inside classes levels)

/-- Fields that do not replace each other. -/
def Apart (field other : FieldOf Class (GPBMessage Class)) : Prop :=
  key field ≠ key other ∧ ∀ oneof, field.descriptor.containingOneof = some oneof →
    other.descriptor.containingOneof ≠ some oneof

theorem Apart.symm {field other : FieldOf Class (GPBMessage Class)} (apart : Apart field other) :
    Apart other field :=
  ⟨apart.1.symm, fun oneof same same' => apart.2 oneof same' same⟩

theorem ProperFields.apart (proper : ProperFields Sub descriptor self) :
    self.fields.Pairwise Apart := by
  refine proper.sorted.imp_of_mem fun {field other} member member' less => ?_
  refine ⟨Nat.ne_of_lt less, fun oneof same same' => ?_⟩
  exact Nat.ne_of_lt less (proper.oneofs field member other member' oneof same same')

theorem maybeClearOneof_apart
    (apart : ∀ other ∈ self.fields, Apart ⟨field, storage⟩ other) :
    self.maybeClearOneof field = self := by
  obtain ⟨fields, unknownFields⟩ := self
  rw [maybeClearOneof]
  cases oneof : field.containingOneof with
  | none => rfl
  | some oneof' =>
      have kept : fields.filter (fun other =>
          other.descriptor.containingOneof != some oneof' || key other == field.number.toNat) =
          fields := by
        refine List.filter_eq_self.mpr fun other member => ?_
        have differ := (apart other member).2 oneof' oneof
        simp only [Bool.or_eq_true, bne_iff_ne]
        exact .inl differ
      exact congrArg (mk · unknownFields) kept

/-- A field that is not set, in a oneof that is not set, is just stored. -/
theorem mergeField_apart (fits : Fits Sub (classes messageClass).fileSyntax field storage)
    (apart : ∀ other ∈ self.fields, Apart ⟨field, storage⟩ other) :
    mergeField classes messageClass self ⟨field, storage⟩ = .ok (self.setStorage field storage) := by
  have absent : self.getStorage field = none := by
    rw [getStorage, Option.map_eq_none_iff, KeyedLists.lookup_eq_none_iff]
    exact fun other member => (apart other member).1.symm
  have cleared := maybeClearOneof_apart apart
  cases fits with
  | value single plain accepted set =>
      rw [mergeField, setValue, cleared]
      exact congrArg Except.ok (if_pos set)
  | array =>
      rw [mergeField, addValues, absent]
      rfl
  | message =>
      rw [mergeField_new absent, setMessage, cleared]
  | messages =>
      rw [mergeField, addMessages, absent]
      rfl

/-- Fields are stored as they are. -/
def takeField (_ : Option (FieldOf Class (GPBMessage Class)))
    (field : FieldOf Class (GPBMessage Class)) : FieldOf Class (GPBMessage Class) := field

theorem combines_takeField : KeyedLists.Combines (@key Class) takeField :=
  fun _ _ _ => rfl

theorem mergeFields_apart {fields : List (FieldOf Class (GPBMessage Class))}
    (fits : ∀ field ∈ fields,
      Fits Sub (classes messageClass).fileSyntax field.descriptor field.storage)
    (pairs : fields.Pairwise Apart)
    (apart : ∀ field ∈ fields, ∀ other ∈ self.fields, Apart field other) :
    mergeFields classes messageClass self fields =
      .ok (mk (KeyedLists.merge key takeField self.fields fields) self.unknownFields) := by
  induction fields generalizing self with
  | nil =>
      obtain ⟨stored, unknownFields⟩ := self
      rw [mergeFields]
      rfl
  | cons field fields ih =>
      have pairs := List.pairwise_cons.mp pairs
      have first := mergeField_apart (fits field List.mem_cons_self) (apart field List.mem_cons_self)
      rw [mergeFields, first]
      refine ih (fun other member => fits other (List.mem_cons_of_mem field member)) pairs.2 ?_
      intro other member stored inside
      rcases KeyedLists.mem_alter inside with rfl | ⟨_, _, _, rfl⟩ | old
      · exact (pairs.1 other member).symm
      · exact (pairs.1 other member).symm
      · exact apart other (List.mem_cons_of_mem field member) stored old

/-- In whatever order they come, fields are stored in theirs. -/
theorem merge_takeField {fields fields' : List (FieldOf Class (GPBMessage Class))}
    (sorted : Sorted key fields) (walk : fields.Perm fields') :
    KeyedLists.merge key takeField [] fields' = fields := by
  have start : Sorted (@key Class) [] := List.Pairwise.nil
  rw [← KeyedLists.merge_perm combines_takeField start sorted.distinct walk]
  apply KeyedLists.ext_lookup (KeyedLists.sorted_merge combines_takeField start) sorted
  intro k
  rw [KeyedLists.lookup_merge combines_takeField start sorted.distinct]
  cases lookup key k fields <;> rfl

theorem mergeFields_init (proper : ProperFields Sub (classes messageClass) other) :
    mergeFields classes messageClass init other.fields = .ok (mk other.fields .empty) := by
  have stored := mergeFields_apart proper.fits proper.apart
    fun _ _ _ (absurd : _ ∈ init.fields) => by cases absurd
  rw [stored]
  exact congrArg (fun fields => Except.ok (mk fields .empty))
    (merge_takeField proper.sorted (List.Perm.refl _))

theorem mergeFrom_init (proper : ProperMessage classes levels messageClass other) :
    mergeFrom classes messageClass init other = .ok other := by
  obtain ⟨fields, unknown⟩ := properMessage_iff.mp proper
  rw [mergeFrom_eq (mergeFields_init fields) unknown]
  obtain ⟨stored, unknownFields⟩ := other
  exact congrArg (fun set => Except.ok (mk stored set))
    (GPBUnknownFieldSet.empty_merged unknown.sorted)

theorem proper_init (classes : Class → GPBDescriptor Class) (levels : Nat) (messageClass : Class) :
    ProperMessage classes levels messageClass init := by
  refine properMessage_iff.mpr ⟨⟨List.Pairwise.nil, ?_, ?_, ?_, ?_⟩,
    GPBUnknownFieldSet.proper_empty levels⟩
  · exact fun _ absurd => by cases absurd
  · exact fun _ absurd => by cases absurd
  · exact fun _ absurd => by cases absurd
  · exact fun _ absurd => by cases absurd

end GPBMessage
end LeptosMusic
