import LeptosMusic.UnknownFieldParsing

/-!
# Calls on a coded output stream

Whatever is written, a single buffer keeps all of it or raises once it is full, and a buffer in
front of an output stream hands everything on, in order and once.
-/
namespace LeptosMusic
open Runs (run)
open GPBOutputBufferState

/-- A call of the public interface. -/
inductive CodedWrite where
  | valueNoTag (type : PlainType) (value : type.Value)
  | field (type : PlainType) (fieldNumber : BitVec 32) (value : type.Value)
  | array (type : PlainType) (fieldNumber : BitVec 32) (values : List type.Value) (tag : BitVec 32)
  | unknownFields (set : GPBUnknownFieldSet)

namespace CodedWrite

def perform (state : GPBOutputBufferState) : CodedWrite → WriteOutcome
  | valueNoTag type value => writeNoTag type value state
  | field type fieldNumber value => writeValue type fieldNumber value state
  | array type fieldNumber values tag => writeArray type fieldNumber values tag state
  | unknownFields set => set.writeToCodedOutputStream state

def bytes : CodedWrite → NSData
  | valueNoTag type value => type.encoding value
  | field type fieldNumber value => tagBytes fieldNumber type.wireFormat ++ type.encoding value
  | array type fieldNumber values tag =>
      if tag = 0 then type.unpacked fieldNumber values else type.packed tag values
  | unknownFields set => set.encoding

theorem emits_perform (write : CodedWrite) : Emits (perform · write) write.bytes := by
  cases write with
  | valueNoTag type value => exact emits_writeNoTag type value
  | field type fieldNumber value => exact emits_writeValue type fieldNumber value
  | array type fieldNumber values tag =>
      by_cases zero : tag = 0
      · subst zero
        exact emits_writeArray_unpacked type fieldNumber values
      · rw [bytes, if_neg zero]
        exact emits_writeArray_packed type fieldNumber values zero
  | unknownFields set => exact set.emits_writeToCodedOutputStream

/-- A buffer without an output stream: it has all bytes, or as many as it can hold when they are
too many. -/
theorem run_initWithData (writes : List CodedWrite) (size : Nat) :
    match run perform (initWithData (dataWithLength size)) writes with
    | .done t => (writes.flatMap bytes).length ≤ size ∧
        t.position = (writes.flatMap bytes).length ∧
          t.bytes.take t.position = writes.flatMap bytes
    | .raised e t => size < (writes.flatMap bytes).length ∧ e = .outOfSpace ∧
        t.bytes = (writes.flatMap bytes).take size := by
  have start : (initWithData (dataWithLength size)).output = none := rfl
  have length : (initWithData (dataWithLength size)).size = size := List.length_replicate
  have position : (initWithData (dataWithLength size)).position = 0 := rfl
  have empty : (initWithData (dataWithLength size)).buffered = [] := rfl
  have outcome := (emits_run emits_perform writes).single start
  rw [length, position, empty, Nat.zero_add, List.nil_append] at outcome
  split_ifs at outcome with fits
  · obtain ⟨t, done, extended⟩ := outcome
    rw [done]
    refine ⟨fits, ?_, extended.buffered⟩
    rw [extended.position, position, Nat.zero_add]
  · obtain ⟨t, raised, kept⟩ := outcome
    rw [raised]
    exact ⟨Nat.not_le.mp fits, rfl, kept⟩

/-- A buffer of any size in front of an output stream: once it is flushed, the stream has taken all
bytes in their order; an exception says that the stream did not take a block whole, and it has the
bytes up to there. -/
theorem run_initWithOutputStream (writes : List CodedWrite) {size : Nat} (nonempty : 0 < size)
    {output : NSOutputStream} (large : TakesLarge size output.accepts) :
    match (run perform (initWithOutputStream (some output) (dataWithLength size)) writes).andThen
        flush with
    | .done t => ∃ sink, t.output = some sink ∧ sink.taken = output.taken ++ writes.flatMap bytes
    | .raised e t => e = .writeFailed ∧
        Refused output.accepts (output.taken ++ writes.flatMap bytes) t := by
  have start : Streamed output.accepts size output.taken
      (initWithOutputStream (some output) (dataWithLength size)) :=
    ⟨List.length_replicate, output, rfl, rfl, List.append_nil _⟩
  have written := (emits_run emits_perform writes).streamed nonempty large start
  cases outcome : run perform (initWithOutputStream (some output) (dataWithLength size)) writes with
  | done t =>
      rw [outcome] at written
      exact flush_streamed written
  | raised e t =>
      rw [outcome] at written
      exact written

/-- A file takes all that it is offered. -/
def file : NSOutputStream where
  accepts _ data := data.length
  taken := []

/-- With a buffer of four bytes, seven of these nine go past it. -/
def longFirst : List CodedWrite :=
  [.field .bytes 1 [1, 2, 3, 4, 5, 6, 7, 8, 9], .field .uint32 2 (300 : BitVec 32)]

theorem run_longFirst :
    ∃ t sink, (run perform (initWithOutputStream (some file) (dataWithLength 4)) longFirst).andThen
        flush = .done t ∧ t.output = some sink ∧ sink.taken = longFirst.flatMap bytes := by
  have outcome := run_initWithOutputStream longFirst (by decide : 0 < 4) fun _ _ _ =>
    (rfl : file.accepts _ _ = _)
  cases ran : (run perform (initWithOutputStream (some file) (dataWithLength 4)) longFirst).andThen
    flush with
  | done t =>
      rw [ran] at outcome
      obtain ⟨sink, output, taken⟩ := outcome
      exact ⟨t, sink, rfl, output, taken⟩
  | raised e t =>
      rw [ran] at outcome
      obtain ⟨_, output, block, _, _, refused, _⟩ := outcome
      exact absurd rfl refused

end CodedWrite
end LeptosMusic
