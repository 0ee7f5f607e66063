import LeptosMusic.UnknownFieldSet
import LeptosMusic.ParsingLoops

/-!
# Parsing unknown fields

The bytes of a set lead to its merge: in the loop of a set, and in any other loop that keeps what
follows their tags among its unknown fields.
-/
namespace LeptosMusic
open KeyedLists (alter lookup Sorted Gives)

namespace UnknownFieldOf

/-- What is added to a field, one value at a time. -/
def updates (field : GPBUnknownField) : List (GPBUnknownField → GPBUnknownField) :=
  field.varintList.map (fun value self => self.addVarint value) ++
    (field.fixed32List.map (fun value self => self.addFixed32 value) ++
      (field.fixed64List.map (fun value self => self.addFixed64 value) ++
        (field.lengthDelimitedList.map (fun value self => self.addLengthDelimited value) ++
          field.groupList.map (fun value self => self.addGroup value))))

/-- `add` leaves the number alone. -/
def KeepsNumber (add : GPBUnknownField → GPBUnknownField) : Prop :=
  ∀ self, (add self).number = self.number

theorem keepsNumber_updates (field : GPBUnknownField) : ∀ add ∈ field.updates, KeepsNumber add := by
  intro add member
  simp only [updates, List.mem_append, List.mem_map] at member
  rcases member with ⟨_, _, rfl⟩ | ⟨_, _, rfl⟩ | ⟨_, _, rfl⟩ | ⟨_, _, rfl⟩ | ⟨_, _, rfl⟩ <;>
    exact fun _ => rfl

/-- All updates of a list, one after the other. -/
def applied (updates : List (GPBUnknownField → GPBUnknownField)) (self : GPBUnknownField) :
    GPBUnknownField := updates.foldl (fun self add => add self) self

/-- Adding values one by one to a list extends the list. -/
theorem applied_map {α : Type} (add : α → GPBUnknownField → GPBUnknownField)
    (extend : List α → GPBUnknownField → GPBUnknownField) (nil : ∀ self, extend [] self = self)
    (cons : ∀ value values self, extend values (add value self) = extend (value :: values) self)
    (values : List α) (self : GPBUnknownField) :
    applied (values.map add) self = extend values self := by
  induction values generalizing self with
  | nil => exact (nil self).symm
  | cons value values ih => exact (ih (add value self)).trans (cons value values self)

theorem applied_append (front back : List (GPBUnknownField → GPBUnknownField))
    (self : GPBUnknownField) :
    applied (front ++ back) self = applied back (applied front self) := List.foldl_append

/-- Merging a field adds its values in the order in which they are written. -/
theorem applied_updates (field self : GPBUnknownField) :
    applied field.updates self = self.mergeFromField field := by
  have varints := applied_map (fun value self => addVarint self value)
    (fun values self => { self with varintList := self.varintList ++ values })
    (by simp) (by simp [addVarint])
  have fixed32s := applied_map (fun value self => addFixed32 self value)
    (fun values self => { self with fixed32List := self.fixed32List ++ values })
    (by simp) (by simp [addFixed32])
  have fixed64s := applied_map (fun value self => addFixed64 self value)
    (fun values self => { self with fixed64List := self.fixed64List ++ values })
    (by simp) (by simp [addFixed64])
  have blocks := applied_map (fun value self => addLengthDelimited self value)
    (fun values self =>
      { self with lengthDelimitedList := self.lengthDelimitedList ++ values })
    (by simp) (by simp [addLengthDelimited])
  have groups := applied_map (fun value self => addGroup self value)
    (fun values self => { self with groupList := self.groupList ++ values })
    (by simp) (by simp [addGroup])
  simp only [updates, applied_append, varints, fixed32s, fixed64s, blocks, groups]
  rfl

theorem keepsNumber_applied {updates : List (GPBUnknownField → GPBUnknownField)}
    (keeps : ∀ add ∈ updates, KeepsNumber add) : KeepsNumber (applied updates) := by
  induction updates with
  | nil => exact fun _ => rfl
  | cons add updates ih =>
      intro self
      have later := ih fun other member => keeps other (List.mem_cons_of_mem add member)
      exact (later (add self)).trans (keeps add List.mem_cons_self self)

theorem mergeFromField_init (field : GPBUnknownField) :
    (initWithNumber field.number).mergeFromField field = field := by
  simp [initWithNumber, mergeFromField]

end UnknownFieldOf

namespace GPBUnknownFieldSet
open UnknownFieldOf (KeepsNumber applied)

theorem gives_addTo {number : BitVec 32} {add : GPBUnknownField → GPBUnknownField}
    (keeps : KeepsNumber add) :
    Gives UnknownFieldOf.key number.toInt
      fun existing => add (existing.getD (UnknownFieldOf.initWithNumber number)) := by
  intro existing keyed
  rw [UnknownFieldOf.key, keeps]
  cases existing with
  | none => rfl
  | some field => exact keyed field rfl

theorem addTo_addTo {number : BitVec 32} {add add' : GPBUnknownField → GPBUnknownField}
    (keeps : KeepsNumber add) (keeps' : KeepsNumber add') {self : GPBUnknownFieldSet}
    (sorted : Sorted UnknownFieldOf.key self.fields) :
    (self.addTo number add).addTo number add' = self.addTo number fun field => add' (add field) :=
  congrArg mk (KeyedLists.alter_alter_same (gives_addTo keeps) (gives_addTo keeps') sorted)

theorem sorted_addTo {number : BitVec 32} {add : GPBUnknownField → GPBUnknownField}
    (keeps : KeepsNumber add) {self : GPBUnknownFieldSet}
    (sorted : Sorted UnknownFieldOf.key self.fields) :
    Sorted UnknownFieldOf.key (self.addTo number add).fields :=
  KeyedLists.sorted_alter (gives_addTo keeps) sorted

/-- One update after the other, all of one number. -/
def addAll (number : BitVec 32) (updates : List (GPBUnknownField → GPBUnknownField))
    (self : GPBUnknownFieldSet) : GPBUnknownFieldSet :=
  updates.foldl (fun self add => self.addTo number add) self

theorem addAll_append (number : BitVec 32)
    (front back : List (GPBUnknownField → GPBUnknownField)) (self : GPBUnknownFieldSet) :
    self.addAll number (front ++ back) = (self.addAll number front).addAll number back :=
  List.foldl_append

theorem addAll_eq {number : BitVec 32} {updates : List (GPBUnknownField → GPBUnknownField)}
    (some : updates ≠ []) (keeps : ∀ add ∈ updates, KeepsNumber add) {self : GPBUnknownFieldSet}
    (sorted : Sorted UnknownFieldOf.key self.fields) :
    self.addAll number updates = self.addTo number (applied updates) := by
  induction updates generalizing self with
  | nil => exact absurd rfl some
  | cons add updates ih =>
      have keepsAdd := keeps add List.mem_cons_self
      have keepsRest := fun other member => keeps other (List.mem_cons_of_mem add member)
      cases updates with
      | nil => rfl
      | cons add' updates =>
          change (self.addTo number add).addAll number (add' :: updates) = _
          rw [ih (List.cons_ne_nil _ _) keepsRest (sorted_addTo keepsAdd sorted),
            addTo_addTo keepsAdd (UnknownFieldOf.keepsNumber_applied keepsRest) sorted]
          rfl

open GPBCodedInputStreamState

variable {state t u : GPBCodedInputStreamState} {fuel : Nat} {self set : GPBUnknownFieldSet}
  {tag : BitVec 32}

theorem merge_end (tagged : readTag state = .ok 0 t) :
    mergeFromCodedInputStream (fuel + 1) self state = .ok self t := by
  rw [mergeFromCodedInputStream, bind_ok tagged, if_pos rfl]
  rfl

theorem merge_more (tagged : readTag state = .ok tag t) (nonzero : tag ≠ 0)
    (field : mergeFieldFrom (mergeFromCodedInputStream fuel) tag self t = .ok (true, set) u) :
    mergeFromCodedInputStream (fuel + 1) self state = mergeFromCodedInputStream fuel set u := by
  rw [mergeFromCodedInputStream, bind_ok tagged, if_neg nonzero, bind_ok field]
  rfl

theorem merge_stop (tagged : readTag state = .ok tag t) (nonzero : tag ≠ 0)
    (field : mergeFieldFrom (mergeFromCodedInputStream fuel) tag self t = .ok (false, set) u) :
    mergeFromCodedInputStream (fuel + 1) self state = .ok set u := by
  rw [mergeFromCodedInputStream, bind_ok tagged, if_neg nonzero, bind_ok field]
  rfl

theorem mergeFieldFrom_makeTag {number : BitVec 32} (valid : GPBWireFormat.FieldNumber number)
    (format : GPBWireFormat) (merge : GPBUnknownFieldSet → Reading GPBUnknownFieldSet)
    (self : GPBUnknownFieldSet) :
    mergeFieldFrom merge (GPBWireFormat.makeTag number format) self = match format with
      | .varint => return (true, self.addTo number (·.addVarint (← readRawVarint64)))
      | .fixed64 => return (true, self.addTo number (·.addFixed64 (← readRawLittleEndian64)))
      | .lengthDelimited => do
          match ← readRetainedBytes with
          | some data => return (true, self.addTo number (·.addLengthDelimited data))
          | none => throw .invalidArgumentException
      | .startGroup => do
          let unknownFieldSet ← readUnknownGroup merge number
          return (true, self.addTo number (·.addGroup unknownFieldSet))
      | .endGroup => return (false, self)
      | .fixed32 => return (true, self.addTo number (·.addFixed32 (← readRawLittleEndian32))) := by
  rw [mergeFieldFrom, GPBWireFormat.getTagWireType_makeTag valid,
    GPBWireFormat.getTagFieldNumber_makeTag valid]
  cases format <;> rfl

/-- The data behind a length, where `nil` would not do. -/
def readData : Reading NSData := do
  match ← readRetainedBytes with
  | some data => return data
  | none => throw .invalidArgumentException

theorem reads_readData {bytes : NSData} (small : bytes.length < 2 ^ 31) :
    Reads readData (lengthPrefixed bytes) bytes := by
  have read : Reads readData (lengthPrefixed bytes ++ []) bytes :=
    (reads_readRetainedBytes small).bind (reads_pure bytes)
  rwa [List.append_nil] at read

theorem readData_bind {α : Type} (next : NSData → Reading α) :
    (readData >>= next) = (readRetainedBytes >>= fun data => match data with
      | some data => next data
      | none => throw .invalidArgumentException) := by
  funext state
  cases outcome : readRetainedBytes state with
  | error e t =>
      have raised : readData state = .error e t := bind_error outcome
      rw [bind_error raised, bind_error outcome]
  | ok data t =>
      cases data with
      | none =>
          have raised : readData state = .error .invalidArgumentException t := bind_ok outcome
          rw [bind_error raised, bind_ok outcome]
          rfl
      | some data =>
          have read : readData state = .ok data t := bind_ok outcome
          rw [bind_ok read, bind_ok outcome]

/-- What a field of a set must be to be read back, but for its values; `Group` says it of its
groups. -/
structure FitField (Group : GPBUnknownFieldSet → Prop) (field : GPBUnknownField) : Prop where
  number : GPBWireFormat.FieldNumber field.number
  lengths : ∀ data ∈ field.lengthDelimitedList, data.length < 2 ^ 31
  groups : ∀ group ∈ field.groupList, Group group

structure ProperField (Group : GPBUnknownFieldSet → Prop) (field : GPBUnknownField) : Prop
    extends FitField Group field where
  updates : field.updates ≠ []

/-- A set whose groups are nested at most so deep. -/
def Proper : Nat → GPBUnknownFieldSet → Prop
  | 0, mk fields => Sorted UnknownFieldOf.key fields ∧ ∀ field ∈ fields, ProperField (fun _ => False) field
  | levels + 1, mk fields =>
      Sorted UnknownFieldOf.key fields ∧ ∀ field ∈ fields, ProperField (Proper levels) field

/-- The groups of a set. -/
def Below : Nat → GPBUnknownFieldSet → Prop
  | 0, _ => False
  | levels + 1, group => Proper levels group

theorem proper_iff (levels : Nat) (set : GPBUnknownFieldSet) :
    Proper levels set ↔ Sorted UnknownFieldOf.key set.fields ∧
      ∀ field ∈ set.fields, ProperField (Below levels) field := by
  obtain ⟨fields⟩ := set
  cases levels <;> exact Iff.rfl

theorem Proper.sorted {levels : Nat} (proper : Proper levels set) :
    Sorted UnknownFieldOf.key set.fields := ((proper_iff levels set).mp proper).1

/-- The loop of a set. -/
abbrev setLoop : TagLoop Unit GPBUnknownFieldSet := fun fuel _ self =>
  mergeFromCodedInputStream fuel self

theorem ends_setLoop : Ends setLoop where
  atLimit tagged := merge_end tagged
  atEndTag valid tagged := by
    refine merge_stop tagged (GPBWireFormat.makeTag_ne_zero valid .endGroup) ?_
    rw [mergeFieldFrom_makeTag valid]
    rfl

/-- What follows this tag is kept in the set that `lift` puts into the value of the loop. -/
def Defers {ι σ : Type} (loop : TagLoop ι σ) (lift : GPBUnknownFieldSet → σ) (tag : BitVec 32) :
    Prop :=
  ∀ fuel i self set state t u, readTag state = .ok tag t →
    mergeFieldFrom (mergeFromCodedInputStream fuel) tag self t = .ok (true, set) u →
      ∃ i', loop (fuel + 1) i (lift self) state = loop fuel i' (lift set) u

theorem defers_setLoop (nonzero : tag ≠ 0) : Defers setLoop id tag :=
  fun _ _ _ _ _ _ _ tagged field => ⟨(), merge_more tagged nonzero field⟩

variable {ι σ : Type} {loop : TagLoop ι σ} {lift : GPBUnknownFieldSet → σ} {depth : Nat}
  {number : BitVec 32}

/-- A tag and one value behind it. -/
theorem leads_value {α : Type} {format : GPBWireFormat} {read : Reading α} {bytes : NSData} {a : α}
    {add : α → GPBUnknownField → GPBUnknownField} (valid : GPBWireFormat.FieldNumber number)
    (defers : Defers loop lift (GPBWireFormat.makeTag number format)) (reads : Reads read bytes a)
    (same : ∀ merge self, mergeFieldFrom merge (GPBWireFormat.makeTag number format) self =
      (read >>= fun a => pure (true, self.addTo number (add a)))) (self : GPBUnknownFieldSet) :
    Leads loop depth (tagBytes number format ++ bytes) (lift self)
      (lift (self.addTo number (add a))) := by
  apply leads_round valid
  intro fuel i state t tagged ordered _ rest ahead _
  have field : mergeFieldFrom (mergeFromCodedInputStream fuel) (GPBWireFormat.makeTag number format)
      self t = .ok (true, self.addTo number (add a)) (t.skip bytes.length) := by
    rw [same, bind_ok (reads t ordered rest ahead)]
    rfl
  obtain ⟨i', taken⟩ := defers fuel i self _ state t _ tagged field
  exact ⟨i', t.lastTag, taken⟩

/-- A group: its own loop ends at the end tag. -/
theorem readUnknownGroup_ahead {group : GPBUnknownFieldSet} {rest : NSData}
    (inner : Leads setLoop (depth + 1) group.encoding empty group)
    (valid : GPBWireFormat.FieldNumber number) (room : depth < kDefaultRecursionLimit)
    (ordered : Ordered state) (atDepth : state.recursionDepth = depth)
    (ahead : state.ahead = group.encoding ++ (tagBytes number .endGroup ++ rest))
    (enough : group.encoding.length + (tagBytes number .endGroup).length ≤ fuel) :
    readUnknownGroup (mergeFromCodedInputStream fuel) number state =
      .ok group ((state.skip (group.encoding.length + (tagBytes number .endGroup).length)).retag
        (GPBWireFormat.makeTag number .endGroup)) := by
  have merged := inner.toEndTag ends_setLoop valid ordered.deeper (congrArg (· + 1) atDepth) ahead
    enough ()
  rw [readUnknownGroup, bind_ok (checkRecursionLimit_ok (atDepth ▸ room)), bind_ok (enter_eq state),
    bind_ok merged, bind_ok (checkLastTagWas_ok (lastTag_retag _)), bind_ok (leave_eq state _ _)]
  rfl

theorem leads_group {group : GPBUnknownFieldSet} (valid : GPBWireFormat.FieldNumber number)
    (defers : Defers loop lift (GPBWireFormat.makeTag number .startGroup))
    (inner : Leads setLoop (depth + 1) group.encoding empty group)
    (room : depth < kDefaultRecursionLimit) (self : GPBUnknownFieldSet) :
    Leads loop depth (tagBytes number .startGroup ++ (group.encoding ++ tagBytes number .endGroup))
      (lift self) (lift (self.addTo number (·.addGroup group))) := by
  apply leads_round valid
  intro fuel i state t tagged ordered atDepth rest ahead enough
  rw [List.append_assoc] at ahead
  rw [List.length_append] at enough ⊢
  have field : mergeFieldFrom (mergeFromCodedInputStream fuel)
      (GPBWireFormat.makeTag number .startGroup) self t = .ok (true, self.addTo number (·.addGroup group))
        ((t.skip (group.encoding.length + (tagBytes number .endGroup).length)).retag
          (GPBWireFormat.makeTag number .endGroup)) := by
    rw [mergeFieldFrom_makeTag valid]
    exact bind_ok (readUnknownGroup_ahead inner valid room ordered atDepth ahead enough)
  obtain ⟨i', taken⟩ := defers fuel i self _ state t _ tagged field
  exact ⟨i', _, taken⟩

/-- `self` with every field of `other` merged in. -/
def merged (self other : GPBUnknownFieldSet) : GPBUnknownFieldSet :=
  other.fields.foldl (fun self field => self.addTo field.number (·.mergeFromField field)) self

/-- Values of one kind, each behind a tag of its own. -/
theorem leads_values (type : PlainType) (add : type.Value → GPBUnknownField → GPBUnknownField)
    (values : List type.Value)
    (each : ∀ value ∈ values, ∀ self, Leads loop depth
      (tagBytes number type.wireFormat ++ type.encoding value) (lift self)
        (lift (self.addTo number (add value)))) (self : GPBUnknownFieldSet) :
    Leads loop depth (type.unpacked number values) (lift self)
      (lift (self.addAll number (values.map add))) := by
  induction values generalizing self with
  | nil => exact leads_nil loop depth (lift self)
  | cons value values ih =>
      have later := ih (fun other member => each other (List.mem_cons_of_mem value member))
        (self.addTo number (add value))
      rw [PlainType.unpacked, List.flatMap_cons]
      exact (each value List.mem_cons_self self).append later

theorem leads_groups (groups : List GPBUnknownFieldSet)
    (each : ∀ group ∈ groups, ∀ self, Leads loop depth
      (tagBytes number .startGroup ++ (group.encoding ++ tagBytes number .endGroup)) (lift self)
        (lift (self.addTo number (·.addGroup group)))) (self : GPBUnknownFieldSet) :
    Leads loop depth (groupsEncoding number groups) (lift self)
      (lift (self.addAll number (groups.map fun group self => self.addGroup group))) := by
  induction groups generalizing self with
  | nil => exact leads_nil loop depth (lift self)
  | cons group groups ih =>
      have first := each group List.mem_cons_self self
      have later := ih (fun other member => each other (List.mem_cons_of_mem group member))
        (self.addTo number (·.addGroup group))
      have both := first.append later
      simp only [List.append_assoc] at both
      exact both

/-- Every value of the field leads to the set with this value added. -/
structure LeadsEach (loop : TagLoop ι σ) (lift : GPBUnknownFieldSet → σ) (depth : Nat)
    (field : GPBUnknownField) : Prop where
  varints : ∀ value ∈ field.varintList, ∀ self, Leads loop depth
    (tagBytes field.number .varint ++ Varints.encode value.toNat) (lift self)
      (lift (self.addTo field.number (·.addVarint value)))
  fixed32s : ∀ value ∈ field.fixed32List, ∀ self, Leads loop depth
    (tagBytes field.number .fixed32 ++ Varints.littleEndian 4 value.toNat) (lift self)
      (lift (self.addTo field.number (·.addFixed32 value)))
  fixed64s : ∀ value ∈ field.fixed64List, ∀ self, Leads loop depth
    (tagBytes field.number .fixed64 ++ Varints.littleEndian 8 value.toNat) (lift self)
      (lift (self.addTo field.number (·.addFixed64 value)))
  blocks : ∀ data ∈ field.lengthDelimitedList, ∀ self, Leads loop depth
    (tagBytes field.number .lengthDelimited ++ lengthPrefixed data) (lift self)
      (lift (self.addTo field.number (·.addLengthDelimited data)))
  groups : ∀ group ∈ field.groupList, ∀ self, Leads loop depth
    (tagBytes field.number .startGroup ++ (group.encoding ++ tagBytes field.number .endGroup))
      (lift self) (lift (self.addTo field.number (·.addGroup group)))

theorem LeadsEach.field {field : GPBUnknownField} (each : LeadsEach loop lift depth field)
    (some : field.updates ≠ []) {self : GPBUnknownFieldSet}
    (sorted : Sorted UnknownFieldOf.key self.fields) :
    Leads loop depth (fieldEncoding field) (lift self)
      (lift (self.addTo field.number (·.mergeFromField field))) := by
  have all : self.addTo field.number (·.mergeFromField field) = self.addAll field.number field.updates := by
    rw [addAll_eq some field.keepsNumber_updates sorted]
    congr 1
    funext other
    exact (UnknownFieldOf.applied_updates field other).symm
  rw [all]
  obtain ⟨number, varintList, fixed32List, fixed64List, lengthDelimitedList, groupList⟩ := field
  have varints := leads_values .uint64 (fun value self => self.addVarint value) _ each.varints self
  have fixed32s := leads_values .fixed32 (fun value self => self.addFixed32 value) _ each.fixed32s
  have fixed64s := leads_values .fixed64 (fun value self => self.addFixed64 value) _ each.fixed64s
  have blocks := leads_values .bytes (fun data self => self.addLengthDelimited data) _ each.blocks
  have groups := leads_groups groupList each.groups
  simp only [UnknownFieldOf.updates, addAll_append, fieldEncoding]
  exact varints.append ((fixed32s _).append ((fixed64s _).append ((blocks _).append (groups _))))

/-- The wire formats of the values of a field. -/
def Carries (field : GPBUnknownField) : GPBWireFormat → Prop
  | .varint => field.varintList ≠ []
  | .fixed32 => field.fixed32List ≠ []
  | .fixed64 => field.fixed64List ≠ []
  | .lengthDelimited => field.lengthDelimitedList ≠ []
  | .startGroup => field.groupList ≠ []
  | .endGroup => False

theorem leadsEach_of_defers {field : GPBUnknownField} {Group : GPBUnknownFieldSet → Prop}
    (fit : FitField Group field)
    (defers : ∀ format, Carries field format →
      Defers loop lift (GPBWireFormat.makeTag field.number format))
    (room : field.groupList ≠ [] → depth < kDefaultRecursionLimit)
    (inner : ∀ group, Group group → Leads setLoop (depth + 1) group.encoding empty group) :
    LeadsEach loop lift depth field where
  varints value member := leads_value fit.number (defers .varint (List.ne_nil_of_mem member))
    (reads_varint64 value) (mergeFieldFrom_makeTag fit.number .varint)
  fixed32s value member := leads_value fit.number (defers .fixed32 (List.ne_nil_of_mem member))
    (reads_word32 value) (mergeFieldFrom_makeTag fit.number .fixed32)
  fixed64s value member := leads_value fit.number (defers .fixed64 (List.ne_nil_of_mem member))
    (reads_word64 value) (mergeFieldFrom_makeTag fit.number .fixed64)
  blocks data member := leads_value fit.number (defers .lengthDelimited (List.ne_nil_of_mem member))
    (reads_readData (fit.lengths data member)) fun merge self =>
      (mergeFieldFrom_makeTag fit.number .lengthDelimited merge self).trans (readData_bind _).symm
  groups group member := leads_group fit.number (defers .startGroup (List.ne_nil_of_mem member))
    (inner group (fit.groups group member)) (room (List.ne_nil_of_mem member))

theorem sorted_mergeField (field : GPBUnknownField) {self : GPBUnknownFieldSet}
    (sorted : Sorted UnknownFieldOf.key self.fields) :
    Sorted UnknownFieldOf.key (self.addTo field.number (·.mergeFromField field)).fields := by
  have keeps : KeepsNumber (·.mergeFromField field) := fun _ => rfl
  exact sorted_addTo keeps sorted

theorem sorted_merged {self : GPBUnknownFieldSet} (other : GPBUnknownFieldSet)
    (sorted : Sorted UnknownFieldOf.key self.fields) :
    Sorted UnknownFieldOf.key (self.merged other).fields := by
  obtain ⟨fields⟩ := other
  change Sorted _ (fields.foldl _ self).fields
  induction fields generalizing self with
  | nil => exact sorted
  | cons field fields ih => exact ih (sorted_mergeField field sorted)

theorem combine_eq (field : GPBUnknownField) :
    (combine · field) = fun existing : Option GPBUnknownField =>
      (existing.getD (UnknownFieldOf.initWithNumber field.number)).mergeFromField field := by
  funext existing
  cases existing with
  | none => exact (UnknownFieldOf.mergeFromField_init field).symm
  | some oldField => rfl

theorem combines : KeyedLists.Combines UnknownFieldOf.key combine := by
  intro field existing keyed
  cases existing with
  | none => rfl
  | some oldField => exact keyed oldField rfl

theorem merged_eq (self other : GPBUnknownFieldSet) :
    self.merged other = mk (KeyedLists.merge UnknownFieldOf.key combine self.fields other.fields) := by
  obtain ⟨fields⟩ := other
  change fields.foldl _ self = mk (fields.foldl _ self.fields)
  induction fields generalizing self with
  | nil =>
      obtain ⟨fields⟩ := self
      rfl
  | cons field fields ih =>
      refine (ih (self.addTo field.number (·.mergeFromField field))).trans ?_
      change mk (fields.foldl _ (alter _ _ _ self.fields)) = mk (fields.foldl _ (alter _ _ _ self.fields))
      rw [← combine_eq]
      rfl

/-- Merging into an empty set copies it. -/
theorem empty_merged {other : GPBUnknownFieldSet} (sorted : Sorted UnknownFieldOf.key other.fields) :
    empty.merged other = other := by
  have start : Sorted UnknownFieldOf.key empty.fields := List.Pairwise.nil
  rw [merged_eq]
  obtain ⟨fields⟩ := other
  refine congrArg mk (KeyedLists.ext_lookup (KeyedLists.sorted_merge combines start) sorted ?_)
  intro k
  rw [KeyedLists.lookup_merge combines start sorted.distinct]
  change _ = lookup UnknownFieldOf.key k (mk fields).fields
  cases lookup UnknownFieldOf.key k (mk fields).fields <;> rfl

/-- In whatever order its fields come, they make the set. -/
theorem empty_merged_perm {other : GPBUnknownFieldSet} {fields : List GPBUnknownField}
    (sorted : Sorted UnknownFieldOf.key other.fields) (walk : other.fields.Perm fields) :
    empty.merged (mk fields) = other := by
  have start : Sorted UnknownFieldOf.key empty.fields := List.Pairwise.nil
  have copied := empty_merged sorted
  rw [merged_eq] at copied ⊢
  rw [← copied]
  exact congrArg mk (KeyedLists.merge_perm combines start sorted.distinct walk).symm

theorem leads_fields {fields : List GPBUnknownField}
    (each : ∀ field ∈ fields, LeadsEach loop lift depth field)
    (some : ∀ field ∈ fields, field.updates ≠ []) {self : GPBUnknownFieldSet}
    (sorted : Sorted UnknownFieldOf.key self.fields) :
    Leads loop depth (fieldsEncoding fields) (lift self) (lift (self.merged (mk fields))) := by
  induction fields generalizing self with
  | nil => exact leads_nil loop depth (lift self)
  | cons field fields ih =>
      have first := (each field List.mem_cons_self).field (some field List.mem_cons_self) sorted
      have later := ih (fun other member => each other (List.mem_cons_of_mem field member))
        (fun other member => some other (List.mem_cons_of_mem field member))
        (sorted_mergeField field sorted)
      exact first.append later

theorem Below.room {levels : Nat} {group : GPBUnknownFieldSet} (below : Below levels group)
    (room : depth + levels ≤ kDefaultRecursionLimit) : depth < kDefaultRecursionLimit := by
  cases levels with
  | zero => exact below.elim
  | succ levels => omega

/-- A field whose tags are all deferred, when its groups are read as they should be. -/
theorem leadsEach_of_fit {levels : Nat} {field : GPBUnknownField}
    (fit : FitField (Below levels) field)
    (defers : ∀ format, Carries field format →
      Defers loop lift (GPBWireFormat.makeTag field.number format))
    (room : depth + levels ≤ kDefaultRecursionLimit)
    (inner : ∀ group, Below levels group → Leads setLoop (depth + 1) group.encoding empty group) :
    LeadsEach loop lift depth field := by
  refine leadsEach_of_defers fit defers ?_ inner
  intro some
  obtain ⟨group, member⟩ := List.exists_mem_of_ne_nil _ some
  exact (fit.groups group member).room room

theorem leads_set_of_inner {levels : Nat} {other : GPBUnknownFieldSet}
    (proper : Proper levels other) (room : depth + levels ≤ kDefaultRecursionLimit)
    (inner : ∀ group, Below levels group → Leads setLoop (depth + 1) group.encoding empty group)
    {self : GPBUnknownFieldSet} (sorted : Sorted UnknownFieldOf.key self.fields) :
    Leads setLoop depth other.encoding self (self.merged other) := by
  have proper := ((proper_iff levels other).mp proper).2
  obtain ⟨fields⟩ := other
  have each (field : GPBUnknownField) (member : field ∈ fields) :
      LeadsEach setLoop id depth field :=
    leadsEach_of_fit (proper field member).toFitField
      (fun format _ => defers_setLoop
        (GPBWireFormat.makeTag_ne_zero (proper field member).number format)) room inner
  exact leads_fields each (fun field member => (proper field member).updates) sorted

/-- The groups of a set, each read into a new one. -/
theorem leads_below {levels : Nat} {group : GPBUnknownFieldSet} (below : Below levels group)
    (room : depth + levels ≤ kDefaultRecursionLimit) :
    Leads setLoop (depth + 1) group.encoding empty group := by
  induction levels generalizing depth group with
  | zero => exact below.elim
  | succ level ih =>
      have start : Sorted UnknownFieldOf.key empty.fields := List.Pairwise.nil
      have space : depth + 1 + level ≤ kDefaultRecursionLimit := by omega
      have read := leads_set_of_inner below space (fun _ inside => ih inside space) start
      rwa [empty_merged (Proper.sorted below)] at read

/-- Wherever the recursion limit leaves room for its groups, a set is read into its merge. -/
theorem leads_set {levels : Nat} {other : GPBUnknownFieldSet} (proper : Proper levels other)
    (room : depth + levels ≤ kDefaultRecursionLimit) {self : GPBUnknownFieldSet}
    (sorted : Sorted UnknownFieldOf.key self.fields) :
    Leads setLoop depth other.encoding self (self.merged other) :=
  leads_set_of_inner proper room (fun _ below => leads_below below room) sorted

theorem proper_empty (levels : Nat) : Proper levels empty :=
  (proper_iff levels empty).mpr ⟨List.Pairwise.nil, fun _ member => by cases member⟩

/-- A value is added to a proper set. -/
theorem proper_addTo {levels : Nat} {number : BitVec 32} {add : GPBUnknownField → GPBUnknownField}
    (proper : Proper levels self) (valid : GPBWireFormat.FieldNumber number)
    (keeps : KeepsNumber add)
    (adds : ∀ field, FitField (Below levels) field → ProperField (Below levels) (add field)) :
    Proper levels (self.addTo number add) := by
  rw [proper_iff] at proper ⊢
  refine ⟨sorted_addTo keeps proper.1, ?_⟩
  intro field member
  have new : FitField (Below levels) (UnknownFieldOf.initWithNumber number) :=
    ⟨valid, fun _ absurd => (List.not_mem_nil absurd).elim,
      fun _ absurd => (List.not_mem_nil absurd).elim⟩
  rcases KeyedLists.mem_alter member with rfl | ⟨old, inside, _, rfl⟩ | old
  · exact adds _ new
  · exact adds _ (proper.2 old inside).toFitField
  · exact proper.2 field old

variable {levels : Nat} {field : GPBUnknownField}

theorem proper_addVarint (fit : FitField (Below levels) field) (value : BitVec 64) :
    ProperField (Below levels) (field.addVarint value) :=
  ⟨⟨fit.number, fit.lengths, fit.groups⟩, by simp [UnknownFieldOf.updates, UnknownFieldOf.addVarint]⟩

theorem proper_addFixed32 (fit : FitField (Below levels) field) (value : BitVec 32) :
    ProperField (Below levels) (field.addFixed32 value) :=
  ⟨⟨fit.number, fit.lengths, fit.groups⟩, by simp [UnknownFieldOf.updates, UnknownFieldOf.addFixed32]⟩

theorem proper_addFixed64 (fit : FitField (Below levels) field) (value : BitVec 64) :
    ProperField (Below levels) (field.addFixed64 value) :=
  ⟨⟨fit.number, fit.lengths, fit.groups⟩, by simp [UnknownFieldOf.updates, UnknownFieldOf.addFixed64]⟩

theorem proper_addLengthDelimited (fit : FitField (Below levels) field) {data : NSData}
    (small : data.length < 2 ^ 31) : ProperField (Below levels) (field.addLengthDelimited data) := by
  refine ⟨⟨fit.number, ?_, fit.groups⟩, ?_⟩
  · intro other member
    rcases List.mem_append.mp member with old | new
    · exact fit.lengths other old
    · obtain rfl := List.mem_singleton.mp new
      exact small
  · simp [UnknownFieldOf.updates, UnknownFieldOf.addLengthDelimited]

theorem proper_addGroup (fit : FitField (Below levels) field) {group : GPBUnknownFieldSet}
    (below : Below levels group) : ProperField (Below levels) (field.addGroup group) := by
  refine ⟨⟨fit.number, fit.lengths, ?_⟩, ?_⟩
  · intro other member
    rcases List.mem_append.mp member with old | new
    · exact fit.groups other old
    · obtain rfl := List.mem_singleton.mp new
      exact below
  · simp [UnknownFieldOf.updates, UnknownFieldOf.addGroup]

theorem proper_mergeFromField {other : GPBUnknownField} (fit : FitField (Below levels) field)
    (proper : ProperField (Below levels) other) :
    ProperField (Below levels) (field.mergeFromField other) := by
  refine ⟨⟨fit.number, ?_, ?_⟩, ?_⟩
  · intro data member
    exact (List.mem_append.mp member).elim (fit.lengths data) (proper.lengths data)
  · intro group member
    exact (List.mem_append.mp member).elim (fit.groups group) (proper.groups group)
  · intro nothing
    apply proper.updates
    simp only [UnknownFieldOf.updates, UnknownFieldOf.mergeFromField, List.append_eq_nil_iff,
      List.map_eq_nil_iff] at nothing ⊢
    tauto

theorem proper_merged {other : GPBUnknownFieldSet} (proper : Proper levels self)
    (proper' : Proper levels other) : Proper levels (self.merged other) := by
  have fields := ((proper_iff levels other).mp proper').2
  clear proper'
  obtain ⟨others⟩ := other
  change Proper levels (others.foldl _ self)
  induction others generalizing self with
  | nil => exact proper
  | cons field others ih =>
      have first := fields field List.mem_cons_self
      refine ih (proper_addTo proper first.number (fun _ => rfl)
        fun _ fit => proper_mergeFromField fit first) ?_
      exact fun other member => fields other (List.mem_cons_of_mem field member)

/-- What parsing unknown fields raises. -/
def Refusal (e : ParseException) : Prop := e.Listed ∨ e = .invalidArgumentException

theorem refusal_listed (e : ParseException) (listed : e.Listed) : Refusal e := .inl listed

theorem meets_readRetainedBytes :
    Meets readRetainedBytes fun data n => 1 ≤ n ∧ ∀ bytes, data = some bytes → bytes.length < 2 ^ 31 := by
  apply meets_readRawVarint32.bind
  intro size n positive
  by_cases negative : size.toInt < 0
  · rw [if_pos negative]
    exact meets_pure ⟨positive, fun _ absurd => by cases absurd⟩
  · rw [if_neg negative]
    have small : sizeT size < 2 ^ 31 := by
      rw [sizeT_nonneg (by omega)]
      have value := BitVec.toInt_eq_toNat_cond size
      split_ifs at value <;> omega
    apply (meets_readRaw (Nat.lt_trans small (by decide))).bind
    intro data k here
    refine meets_pure ⟨by omega, ?_⟩
    rintro bytes ⟨⟩
    omega

/-- A round that reads one value. -/
theorem lands_value {α : Type} {number : BitVec 32} {read : Reading α} {P : α → Nat → Prop}
    {add : α → GPBUnknownField → GPBUnknownField} (meets : Meets read P)
    (keeps : ∀ a, KeepsNumber (add a))
    (adds : ∀ a n, P a n → ∀ field, FitField (Below levels) field →
      ProperField (Below levels) (add a field))
    (ordered : Ordered state) (proper : Proper levels self)
    (valid : GPBWireFormat.FieldNumber number) :
    Lands Refusal (fun result _ => Proper levels result.2) state
      ((read >>= fun a => pure (true, self.addTo number (add a))) state) := by
  apply (meets.lands refusal_listed ordered).bind
  rintro a t _ ⟨n, _, _, holds⟩
  exact lands_pure (proper_addTo proper valid (keeps a) (adds a n holds))

/-- A round that reads a group, by what its loop does one level further down. -/
theorem lands_group {number : BitVec 32} {merge : GPBUnknownFieldSet → Reading GPBUnknownFieldSet}
    (proper : Proper levels self) (valid : GPBWireFormat.FieldNumber number)
    (room : state.recursionDepth + levels = kDefaultRecursionLimit)
    (inner : ∀ level, levels = level + 1 →
      Lands Refusal (fun group _ => Proper level group) state.deeper (merge empty state.deeper)) :
    Lands Refusal (fun result _ => Proper levels result.2) state
      ((readUnknownGroup merge number >>= fun group =>
        pure (true, self.addTo number (·.addGroup group))) state) := by
  have read : Lands Refusal (fun group _ => Below levels group) state
      (readUnknownGroup merge number state) := by
    apply Lands.checked refusal_listed
    intro below
    cases levels with
    | zero => omega
    | succ level =>
        refine ((inner level rfl).nested refusal_listed).mono ?_
        rintro group t _ ⟨_, properGroup⟩
        exact properGroup
  apply read.bind
  intro group t _ properGroup
  have keeps : KeepsNumber (·.addGroup group) := fun _ => rfl
  exact lands_pure (proper_addTo proper valid keeps fun _ fit => proper_addGroup fit properGroup)

theorem lands_data {number : BitVec 32} (ordered : Ordered state) (proper : Proper levels self)
    (valid : GPBWireFormat.FieldNumber number) :
    Lands Refusal (fun result _ => Proper levels result.2) state
      ((readData >>= fun data => pure (true, self.addTo number (·.addLengthDelimited data))) state) := by
  rw [readData_bind]
  apply (meets_readRetainedBytes.lands refusal_listed ordered).bind
  rintro data t _ ⟨n, _, _, _, small⟩
  cases data with
  | none => exact lands_throw (.inr rfl)
  | some data =>
      have keeps : KeepsNumber (·.addLengthDelimited data) := fun _ => rfl
      exact lands_pure (proper_addTo proper valid keeps
        fun _ fit => proper_addLengthDelimited fit (small data rfl))

/-- One round, whatever the tag. -/
theorem lands_field {merge : GPBUnknownFieldSet → Reading GPBUnknownFieldSet}
    (ordered : Ordered state) (proper : Proper levels self)
    (named : GPBWireFormat.isValidTag tag = true)
    (valid : GPBWireFormat.FieldNumber (GPBWireFormat.getTagFieldNumber tag))
    (room : state.recursionDepth + levels = kDefaultRecursionLimit)
    (inner : ∀ level, levels = level + 1 →
      Lands Refusal (fun group _ => Proper level group) state.deeper (merge empty state.deeper)) :
    Lands Refusal (fun result _ => Proper levels result.2) state
      (mergeFieldFrom merge tag self state) := by
  obtain ⟨format, isFormat⟩ := GPBWireFormat.getTagWireType_of_isValidTag named
  have parts := GPBWireFormat.makeTag_parts isFormat
  have round := mergeFieldFrom_makeTag valid format merge self
  rw [parts] at round
  rw [round]
  cases format with
  | varint =>
      exact lands_value meets_readRawVarint64 (fun _ _ => rfl)
        (fun value _ _ _ fit => proper_addVarint fit value) ordered proper valid
  | fixed64 =>
      exact lands_value meets_readRawLittleEndian64 (fun _ _ => rfl)
        (fun value _ _ _ fit => proper_addFixed64 fit value) ordered proper valid
  | lengthDelimited =>
      have data := @lands_data _ _ _ _ ordered proper valid
      rw [readData_bind] at data
      exact data
  | startGroup => exact lands_group proper valid room inner
  | endGroup => exact lands_pure proper
  | fixed32 =>
      exact lands_value meets_readRawLittleEndian32 (fun _ _ => rfl)
        (fun value _ _ _ fit => proper_addFixed32 fit value) ordered proper valid

/-- A round of the loop of a set. -/
abbrev setRound (fuel : Nat) (tag : BitVec 32) (self : GPBUnknownFieldSet) :
    Reading (Bool × GPBUnknownFieldSet) :=
  mergeFieldFrom (mergeFromCodedInputStream fuel) tag self

/-- The loop on any bytes: it ends with a proper set, within the limit, or with one of the
exceptions. -/
theorem lands_set {levels fuel : Nat} {state : GPBCodedInputStreamState} {self : GPBUnknownFieldSet}
    (ordered : Ordered state) (enough : state.ahead.length < fuel)
    (room : state.recursionDepth + levels = kDefaultRecursionLimit) (proper : Proper levels self) :
    Lands Refusal (fun set _ => Proper levels set) state
      (mergeFromCodedInputStream fuel self state) := by
  induction levels generalizing fuel state self with
  | zero =>
      apply lands_rounds mergeFromCodedInputStream setRound refusal_listed (fun _ _ => rfl) ?_ ordered
        rfl enough proper
      intro fuel tag s t ordered' atDepth _ named valid proper'
      exact lands_field ordered' proper' named valid (atDepth ▸ room) fun level absurd => by cases absurd
  | succ level ih =>
      apply lands_rounds mergeFromCodedInputStream setRound refusal_listed (fun _ _ => rfl) ?_ ordered
        rfl enough proper
      intro fuel tag s t ordered' atDepth shorter named valid proper'
      refine lands_field ordered' proper' named valid (atDepth ▸ room) fun level' same => ?_
      cases same
      exact ih ordered'.deeper shorter (by rw [recursionDepth_deeper]; omega) (proper_empty level)

/-- The loop over whole data, and the check behind it. -/
theorem mergeFromData_of_loop {data : NSData} {n : Nat}
    (merged : mergeFromCodedInputStream (data.length + 1) self (initWithData data) =
      .ok set (((initWithData data).skip n).retag 0)) : self.mergeFromData data = .ok set := by
  have checked : checkLastTagWas 0 (((initWithData data).skip n).retag 0) = .ok () _ :=
    checkLastTagWas_ok (lastTag_retag 0)
  rw [mergeFromData, bind_ok merged, bind_ok checked]
  rfl

theorem mergeFromData_of_leads {bytes : NSData} (leads : Leads setLoop 0 bytes self set)
    (small : bytes.length < 2 ^ 62) : self.mergeFromData bytes = .ok set :=
  mergeFromData_of_loop (leads.toEnd ends_setLoop (ordered_initWithData small) rfl
    (ahead_initWithData bytes) (Nat.lt_succ_self _) ())

theorem leads_whole {other : GPBUnknownFieldSet} (proper : Proper kDefaultRecursionLimit other)
    (sorted : Sorted UnknownFieldOf.key self.fields) :
    Leads setLoop 0 other.encoding self (self.merged other) :=
  leads_set proper (Nat.le_of_eq (Nat.zero_add _)) sorted

/-- The bytes of one set after the other are parsed into the merge of both. -/
theorem mergeFromData_append {first second : GPBUnknownFieldSet}
    (proper : Proper kDefaultRecursionLimit first) (proper' : Proper kDefaultRecursionLimit second)
    (small : (first.encoding ++ second.encoding).length < 2 ^ 62)
    (sorted : Sorted UnknownFieldOf.key self.fields) :
    self.mergeFromData (first.encoding ++ second.encoding) =
      .ok ((self.merged first).merged second) :=
  mergeFromData_of_leads
    ((leads_whole proper sorted).append (leads_whole proper' (sorted_merged first sorted))) small

theorem mergeFromData_encoding {other : GPBUnknownFieldSet}
    (proper : Proper kDefaultRecursionLimit other) (small : other.encoding.length < 2 ^ 62) :
    empty.mergeFromData other.encoding = .ok other := by
  have start : Sorted UnknownFieldOf.key empty.fields := List.Pairwise.nil
  have leads := leads_whole proper start
  rw [empty_merged proper.sorted] at leads
  exact mergeFromData_of_leads leads small

/-- Parsing any data ends with a proper set or one of the exceptions. -/
theorem mergeFromData_parsed {data : NSData} (small : data.length < 2 ^ 62)
    (proper : Proper kDefaultRecursionLimit self) :
    match self.mergeFromData data with
    | .ok set => Proper kDefaultRecursionLimit set
    | .error e => Refusal e := by
  have enough : (initWithData data).ahead.length < data.length + 1 := by
    rw [ahead_initWithData]
    exact Nat.lt_succ_self _
  have parsed := lands_set (ordered_initWithData small) enough (Nat.zero_add kDefaultRecursionLimit)
    proper
  rw [mergeFromData]
  cases outcome : mergeFromCodedInputStream (data.length + 1) self (initWithData data) with
  | error e t =>
      rw [bind_error outcome]
      rw [outcome] at parsed
      exact parsed
  | ok set t =>
      rw [bind_ok outcome]
      rw [outcome] at parsed
      by_cases atEnd : t.lastTag = 0
      · rw [bind_ok (checkLastTagWas_ok atEnd)]
        exact parsed.2
      · have raised : checkLastTagWas 0 t = .error (.codedInputStream .invalidTag
            (some "Unexpected tag read")) t := if_pos atEnd
        rw [bind_error raised]
        exact .inl ⟨_, _, rfl⟩

/-- However the dictionary of the other set is walked, its fields are merged one by one. -/
theorem foldlM_mergeField {fields : List GPBUnknownField}
    (numbers : ∀ field ∈ fields, field.number ≠ 0) (self : GPBUnknownFieldSet) :
    fields.foldlM mergeField self =
      .ok (mk (KeyedLists.merge UnknownFieldOf.key combine self.fields fields)) := by
  induction fields generalizing self with
  | nil =>
      obtain ⟨fields⟩ := self
      rfl
  | cons field fields ih =>
      have first : self.mergeField field =
          .ok (mk (alter UnknownFieldOf.key field.key (combine · field) self.fields)) := by
        rw [mergeField, checkNumber, if_neg (numbers field List.mem_cons_self)]
        rfl
      rw [List.foldlM_cons, first]
      exact ih (fun other member => numbers other (List.mem_cons_of_mem field member)) _

theorem FitField.number_ne_zero {Group : GPBUnknownFieldSet → Prop} {field : GPBUnknownField}
    (fit : FitField Group field) : field.number ≠ 0 := by
  intro zero
  have positive := fit.number.1
  rw [zero] at positive
  exact absurd positive (by decide)

theorem mergeUnknownFields_eq {levels : Nat} {other : GPBUnknownFieldSet}
    (proper : Proper levels other) (self : GPBUnknownFieldSet) :
    self.mergeUnknownFields other = .ok (self.merged other) := by
  have numbers : ∀ field ∈ other.fields, field.number ≠ 0 := fun field member =>
    (((proper_iff _ _).mp proper).2 field member).number_ne_zero
  rw [mergeUnknownFields, foldlM_mergeField numbers, merged_eq]

/-- A number, a word and a group with data in it. -/
def sample : GPBUnknownFieldSet :=
  mk [⟨1, [150], [], [], [], []⟩, ⟨3, [], [7], [], [], [mk [⟨2, [], [], [], [[104, 105]], []⟩]]⟩]

theorem proper_sample : Proper kDefaultRecursionLimit sample := by
  have inner : Proper 99 (mk [⟨2, [], [], [], [[104, 105]], []⟩]) := by
    refine (proper_iff _ _).mpr ⟨List.pairwise_singleton _ _, ?_⟩
    intro field member
    obtain rfl := List.mem_singleton.mp member
    refine ⟨⟨by decide, ?_, fun _ none => (List.not_mem_nil none).elim⟩, List.cons_ne_nil _ _⟩
    intro data member
    obtain rfl := List.mem_singleton.mp member
    decide
  refine (proper_iff _ _).mpr ⟨List.pairwise_pair.mpr (by decide), ?_⟩
  intro field member
  rcases List.mem_pair.mp member with rfl | rfl
  · exact ⟨⟨by decide, fun _ none => (List.not_mem_nil none).elim,
      fun _ none => (List.not_mem_nil none).elim⟩, List.cons_ne_nil _ _⟩
  · refine ⟨⟨by decide, fun _ none => (List.not_mem_nil none).elim, ?_⟩, List.cons_ne_nil _ _⟩
    intro group member
    obtain rfl := List.mem_singleton.mp member
    exact inner

theorem serializedSize_sample : sample.serializedSize < 2 ^ 61 := by decide

/-- The data of a set has the size that was computed for it, and is parsed into the same set. -/
theorem mergeFromData_of_data {other : GPBUnknownFieldSet}
    (proper : Proper kDefaultRecursionLimit other) (small : other.serializedSize < 2 ^ 62) :
    ∃ data, other.data = .ok data ∧ data.length = other.serializedSize ∧
      empty.mergeFromData data = .ok other := by
  have size := serializedSize_eq other
  exact ⟨other.encoding, data_eq other, size.symm, mergeFromData_encoding proper (by omega)⟩

theorem mergeFromData_of_data_sample :
    ∃ data, sample.data = .ok data ∧ data.length = sample.serializedSize ∧
      empty.mergeFromData data = .ok sample :=
  mergeFromData_of_data proper_sample (Nat.lt_trans serializedSize_sample (by decide))

/-- The data of one set behind that of another is parsed into what `mergeUnknownFields:` makes of
both, in whatever order it walks the dictionary. -/
theorem mergeFromData_data_append {first second : GPBUnknownFieldSet}
    (proper : Proper kDefaultRecursionLimit first) (proper' : Proper kDefaultRecursionLimit second)
    (small : first.serializedSize + second.serializedSize < 2 ^ 62)
    {fields : List GPBUnknownField} (walk : second.fields.Perm fields) :
    ∃ data data', first.data = .ok data ∧ second.data = .ok data' ∧
      empty.mergeFromData (data ++ data') = fields.foldlM mergeField first := by
  have numbers : ∀ field ∈ fields, field.number ≠ 0 := fun field member =>
    (((proper_iff _ _).mp proper').2 field (walk.mem_iff.mpr member)).number_ne_zero
  have start : Sorted UnknownFieldOf.key empty.fields := List.Pairwise.nil
  have length : (first.encoding ++ second.encoding).length < 2 ^ 62 := by
    rwa [List.length_append, ← serializedSize_eq, ← serializedSize_eq]
  refine ⟨first.encoding, second.encoding, data_eq first, data_eq second, ?_⟩
  rw [mergeFromData_append proper proper' length start, empty_merged proper.sorted, merged_eq,
    KeyedLists.merge_perm combines proper.sorted proper'.sorted.distinct walk,
    foldlM_mergeField numbers]

theorem mergeFromData_data_append_sample :
    ∃ data data', sample.data = .ok data ∧ sample.data = .ok data' ∧
      empty.mergeFromData (data ++ data') = sample.fields.reverse.foldlM mergeField sample :=
  mergeFromData_data_append proper_sample proper_sample
    (by have := serializedSize_sample; omega) (List.reverse_perm _).symm

/-- Whatever the data are, parsing them ends within them, with an exception for the caller or with a
set whose fields are named, sorted and not empty and whose groups keep to the recursion limit; the
data of this set are then parsed into it again. -/
theorem mergeFromData_any {data : NSData} (small : data.length < 2 ^ 62) :
    match empty.mergeFromData data with
    | .ok set => Proper kDefaultRecursionLimit set ∧ (set.serializedSize < 2 ^ 62 →
        ∃ data', set.data = .ok data' ∧ empty.mergeFromData data' = .ok set)
    | .error e => Refusal e := by
  have parsed := mergeFromData_parsed small (proper_empty kDefaultRecursionLimit)
  cases outcome : empty.mergeFromData data with
  | error e =>
      rw [outcome] at parsed
      exact parsed
  | ok set =>
      rw [outcome] at parsed
      refine ⟨parsed, fun small' => ⟨set.encoding, data_eq set, mergeFromData_encoding parsed ?_⟩⟩
      rwa [← serializedSize_eq]

/-- A number that is written longer than it needs to be, and a group. -/
theorem mergeFromData_any_redundant :
    match empty.mergeFromData [0x08, 0x96, 0x81, 0x00, 0x13, 0x10, 0x01, 0x14] with
    | .ok set => Proper kDefaultRecursionLimit set ∧ (set.serializedSize < 2 ^ 62 →
        ∃ data', set.data = .ok data' ∧ empty.mergeFromData data' = .ok set)
    | .error e => Refusal e := mergeFromData_any (by decide)

end GPBUnknownFieldSet
end LeptosMusic
