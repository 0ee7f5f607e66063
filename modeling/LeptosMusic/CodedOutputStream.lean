import LeptosMusic.Foundation
import LeptosMusic.FormEncoding
import LeptosMusic.WireFormat
import LeptosMusic.Library.Runs

/-!
# The coded output stream

Bytes are gathered in a buffer. Without an output stream the buffer is all there is; with one
a full buffer is handed to it. Every method comes down to raw writes of single bytes and of
whole blocks.
-/
namespace LeptosMusic
open Runs (Outcome run Performs performs_one performs_nothing)

/-- `accepts` is the answer to `write:maxLength:` after the bytes taken so far. -/
structure NSOutputStream where
  accepts : NSData → NSData → Int
  taken : NSData

def NSOutputStream.write (self : NSOutputStream) (bytes : NSData) : NSOutputStream × Int :=
  let written := self.accepts self.taken bytes
  ({ self with taken := self.taken ++ bytes.take written.toNat }, written)

/-- `badAccess` is a write outside the buffer. -/
inductive GPBCodedOutputStreamException where
  | outOfSpace
  | writeFailed
  | badAccess
  deriving DecidableEq, Repr

/-- `size` is the length of `bytes`. -/
structure GPBOutputBufferState where
  bytes : NSData
  position : Nat
  output : Option NSOutputStream
  within : position ≤ bytes.length

abbrev WriteOutcome := Outcome GPBCodedOutputStreamException GPBOutputBufferState

namespace GPBOutputBufferState

def size (state : GPBOutputBufferState) : Nat := state.bytes.length

/-- `initWithOutputStream:data:` -/
def initWithOutputStream (output : Option NSOutputStream) (data : NSData) : GPBOutputBufferState :=
  { bytes := data, position := 0, output := output, within := Nat.zero_le _ }

/-- `initWithData:` -/
def initWithData (data : NSData) : GPBOutputBufferState := initWithOutputStream none data

theorem le_overwrite_length {position : Nat} {value bytes : NSData}
    (fits : position + value.length ≤ bytes.length) :
    position + value.length ≤ (ByteStrings.overwrite position value bytes).length := by
  simp only [ByteStrings.overwrite, List.length_append, List.length_take, List.length_drop]
  omega

/-- `memcpy` to the position, which moves past the copy. -/
def memcpy (state : GPBOutputBufferState) (value : NSData) : WriteOutcome :=
  if fits : state.position + value.length ≤ state.bytes.length then
    .done { state with
      bytes := ByteStrings.overwrite state.position value state.bytes
      position := state.position + value.length
      within := le_overwrite_length fits }
  else .raised .badAccess state

def refreshBuffer (state : GPBOutputBufferState) : WriteOutcome :=
  match state.output with
  | none => .raised .outOfSpace state
  | some output =>
      if state.position ≠ 0 then
        let (output, written) := output.write (state.bytes.take state.position)
        if written ≠ state.position then .raised .writeFailed { state with output := some output }
        else .done { state with output := some output, position := 0, within := Nat.zero_le _ }
      else .done state

def writeRawByte (state : GPBOutputBufferState) (value : UInt8) : WriteOutcome :=
  (if state.position = state.size then state.refreshBuffer else .done state).andThen fun state =>
    state.memcpy [value]

/-- A block longer than the buffer goes past it, and the answer of the output stream is not
looked at. -/
def writeThrough (state : GPBOutputBufferState) (value : NSData) : GPBOutputBufferState :=
  { state with output := state.output.map fun output => (output.write value).1 }

def writeRawPtr (state : GPBOutputBufferState) (value : NSData) : WriteOutcome :=
  if value.length = 0 then .done state
  else
    let bufferBytesLeft := state.size - state.position
    if bufferBytesLeft ≥ value.length then state.memcpy value
    else
      (state.memcpy (value.take bufferBytesLeft)).andThen fun state =>
        state.refreshBuffer.andThen fun state =>
          -- the position is 0 here
          let rest := value.drop bufferBytesLeft
          if rest.length ≤ state.size then state.memcpy rest
          else .done (state.writeThrough rest)

def flush (state : GPBOutputBufferState) : WriteOutcome :=
  if state.output.isSome then state.refreshBuffer else .done state

/-- `GPBWriteRawVarint32` and `GPBWriteRawVarint64` -/
def writeRawVarint {w : Nat} (state : GPBOutputBufferState) (value : BitVec w) : WriteOutcome :=
  if value &&& ~~~0x7F#w = 0#w then state.writeRawByte (UInt8.ofBitVec (value.setWidth 8))
  else
    (state.writeRawByte (UInt8.ofBitVec ((value &&& 0x7F#w ||| 0x80#w).setWidth 8))).andThen
      fun state => writeRawVarint state (value >>> 7)
termination_by value.toNat
decreasing_by
  rename_i more
  have nonzero : value.toNat ≠ 0 := by
    intro zero
    obtain rfl : value = 0#w := BitVec.eq_of_toNat_eq zero
    exact more BitVec.zero_and
  rw [BitVec.toNat_ushiftRight, Nat.shiftRight_eq_div_pow]
  omega

inductive RawWrite where
  | byte (value : UInt8)
  | block (value : NSData)

namespace RawWrite

def content : RawWrite → NSData
  | byte value => [value]
  | block value => value

def perform (state : GPBOutputBufferState) : RawWrite → WriteOutcome
  | byte value => state.writeRawByte value
  | block value => state.writeRawPtr value

end RawWrite

/-- The bytes of a list of raw writes. -/
def contents (writes : List RawWrite) : NSData := writes.flatMap RawWrite.content

/-- The raw writes that an operation comes down to. -/
abbrev Makes := Performs RawWrite.perform

theorem makes_byte (value : UInt8) : Makes (·.writeRawByte value) [.byte value] :=
  performs_one (RawWrite.byte value)

theorem makes_block (value : NSData) : Makes (·.writeRawPtr value) [.block value] :=
  performs_one (RawWrite.block value)

@[simp] theorem contents_nil : contents [] = [] := rfl

@[simp] theorem contents_append (front back : List RawWrite) :
    contents (front ++ back) = contents front ++ contents back := List.flatMap_append

@[simp] theorem contents_bytes (bytes : NSData) : contents (bytes.map .byte) = bytes := by
  induction bytes with
  | nil => rfl
  | cons b bytes ih =>
      rw [List.map_cons, contents, List.flatMap_cons]
      exact congrArg (b :: ·) ih

@[simp] theorem contents_block (value : NSData) : contents [.block value] = value :=
  List.append_nil value

/-- Masking the high bits tells the values that fit into the low ones. -/
theorem and_eq_zero_iff_lt {w k : Nat} {mask : BitVec w}
    (high : ∀ i < w, mask.getLsbD i = decide (k ≤ i)) (value : BitVec w) :
    value &&& mask = 0#w ↔ value.toNat < 2 ^ k := by
  constructor
  · intro zero
    apply Nat.lt_pow_two_of_testBit
    intro i above
    rw [BitVec.testBit_toNat]
    by_cases inside : i < w
    · have bit : (value &&& mask).getLsbD i = (0#w).getLsbD i :=
        congrArg (BitVec.getLsbD · i) zero
      rwa [BitVec.getLsbD_and, high i inside, BitVec.getLsbD_zero, decide_eq_true above,
        Bool.and_true] at bit
    · exact BitVec.getLsbD_of_ge value i (Nat.not_lt.mp inside)
  · intro small
    ext i inside
    rw [BitVec.getElem_and, ← BitVec.getLsbD_eq_getElem, ← BitVec.getLsbD_eq_getElem,
      high i inside, BitVec.getElem_zero]
    by_cases above : k ≤ i
    · have power : 2 ^ k ≤ 2 ^ i := Nat.pow_le_pow_right (by decide) above
      have bit : value.getLsbD i = false := by
        rw [← BitVec.testBit_toNat]
        exact Nat.testBit_lt_two_pow (Nat.lt_of_lt_of_le small power)
      rw [bit, Bool.false_and]
    · rw [decide_eq_false above, Bool.and_false]

/-- The loop ends at a value of seven bits. -/
theorem lastGroup_iff {w : Nat} (value : BitVec w) :
    value &&& ~~~0x7F#w = 0#w ↔ value.toNat < 128 := by
  apply and_eq_zero_iff_lt (k := 7)
  intro i inside
  rw [BitVec.getLsbD_not, BitVec.getLsbD_ofNat, Nat.testBit_two_pow_sub_one (n := 7)]
  simp only [decide_eq_true inside, Bool.true_and, ← decide_not, Nat.not_lt]

theorem lastGroup_byte {w : Nat} (value : BitVec w) :
    UInt8.ofBitVec (value.setWidth 8) = UInt8.ofNat value.toNat := by
  apply UInt8.toNat_inj.mp
  rw [UInt8.toNat_ofBitVec, BitVec.toNat_setWidth, UInt8.toNat_ofNat']

theorem group_byte {w : Nat} {value : BitVec w} (large : 128 ≤ value.toNat) :
    UInt8.ofBitVec ((value &&& 0x7F#w ||| 0x80#w).setWidth 8) =
      UInt8.ofNat (value.toNat % 128 + 128) := by
  have wide : 2 ^ 8 ≤ 2 ^ w := by
    apply Nat.pow_le_pow_right (by decide)
    by_contra narrow
    have : 2 ^ w ≤ 2 ^ 7 := Nat.pow_le_pow_right (by decide) (by omega)
    have := value.isLt
    omega
  have low : value.toNat &&& 127 = value.toNat % 128 := Nat.and_two_pow_sub_one_eq_mod _ 7
  have high : value.toNat % 128 ||| 128 = value.toNat % 128 + 128 := by
    rw [Nat.or_comm, Nat.add_comm]
    exact (Nat.two_pow_add_eq_or_of_lt (i := 7) (b := value.toNat % 128) (by omega) 1).symm
  apply UInt8.toNat_inj.mp
  rw [UInt8.toNat_ofBitVec, BitVec.toNat_setWidth, UInt8.toNat_ofNat', BitVec.toNat_or,
    BitVec.toNat_and, BitVec.toNat_ofNat, BitVec.toNat_ofNat,
    Nat.mod_eq_of_lt (a := 0x7F) (by omega), Nat.mod_eq_of_lt (a := 0x80) (by omega), low, high]

theorem makes_writeRawVarint {w : Nat} (value : BitVec w) :
    Makes (·.writeRawVarint value) ((Varints.encode value.toNat).map .byte) := by
  induction h : value.toNat using Nat.strongRecOn generalizing value with
  | ind n ih =>
      subst h
      intro state
      change state.writeRawVarint value = _
      rw [writeRawVarint]
      split_ifs with last
      · have small := (lastGroup_iff value).mp last
        rw [lastGroup_byte, Varints.encode_small small]
        exact makes_byte _ state
      · have large := Nat.not_lt.mp ((lastGroup_iff value).not.mp last)
        have shifted : (value >>> 7).toNat = value.toNat / 128 := by
          rw [BitVec.toNat_ushiftRight, Nat.shiftRight_eq_div_pow]
        have rest := ih (value >>> 7).toNat (by omega) (value >>> 7) rfl
        rw [group_byte large, Varints.encode_large large, List.map_cons, ← shifted]
        exact (makes_byte _).andThen rest state

/-- The bytes gathered since the buffer was last handed on. -/
def buffered (state : GPBOutputBufferState) : NSData := state.bytes.take state.position

@[simp] theorem buffered_length (state : GPBOutputBufferState) :
    state.buffered.length = state.position := by
  rw [buffered, List.length_take, Nat.min_eq_left state.within]

/-- `t` is `state` with `value` behind its buffered bytes. -/
structure Extended (state : GPBOutputBufferState) (value : NSData) (t : GPBOutputBufferState) :
    Prop where
  output : t.output = state.output
  size : t.size = state.size
  buffered : t.buffered = state.buffered ++ value

theorem Extended.position {state t : GPBOutputBufferState} {value : NSData}
    (extended : Extended state value t) : t.position = state.position + value.length := by
  rw [← buffered_length t, extended.buffered, List.length_append, buffered_length]

theorem memcpy_fits {state : GPBOutputBufferState} {value : NSData}
    (fits : state.position + value.length ≤ state.size) :
    ∃ t, state.memcpy value = .done t ∧ Extended state value t := by
  have front : (state.bytes.take state.position ++ value).length = state.position + value.length := by
    rw [List.length_append, List.length_take, Nat.min_eq_left state.within]
  refine ⟨_, dif_pos fits, rfl, ?_, ?_⟩
  · simp only [size, ByteStrings.overwrite, List.length_append, List.length_take, List.length_drop]
    have := state.within
    simp only [size] at fits
    omega
  · change (state.bytes.take state.position ++ value ++
      state.bytes.drop (state.position + value.length)).take (state.position + value.length) = _
    rw [← front, List.take_left]
    rfl

theorem perform_fits {state : GPBOutputBufferState} {write : RawWrite}
    (fits : state.position + write.content.length ≤ state.size) :
    ∃ t, write.perform state = .done t ∧ Extended state write.content t := by
  cases write with
  | byte value =>
      have space : state.position ≠ state.size := by
        change state.position + 1 ≤ state.size at fits
        omega
      rw [RawWrite.perform, writeRawByte, if_neg space]
      exact memcpy_fits fits
  | block value =>
      change state.position + value.length ≤ state.size at fits
      rw [RawWrite.perform, writeRawPtr]
      by_cases empty : value.length = 0
      · obtain rfl := List.length_eq_zero_iff.mp empty
        exact ⟨state, rfl, rfl, rfl, (List.append_nil _).symm⟩
      · rw [if_neg empty, if_pos (by omega)]
        exact memcpy_fits fits

theorem bytes_of_full {state : GPBOutputBufferState} (full : state.position = state.size) :
    state.bytes = state.buffered := by
  rw [buffered, full]
  exact (List.take_length).symm

/-- Without an output stream the bytes that have room are kept, and the first one that has
none raises. -/
theorem perform_outOfSpace {state : GPBOutputBufferState} {write : RawWrite}
    (single : state.output = none) (beyond : state.size < state.position + write.content.length) :
    ∃ t, write.perform state = .raised .outOfSpace t ∧
      t.bytes = (state.buffered ++ write.content).take state.size := by
  have within : state.position ≤ state.size := state.within
  cases write with
  | byte value =>
      have full : state.position = state.size := by
        change state.size < state.position + 1 at beyond
        omega
      refine ⟨state, ?_, ?_⟩
      · rw [RawWrite.perform, writeRawByte, if_pos full, refreshBuffer, single]
        rfl
      · rw [← full, ← buffered_length, List.take_left]
        exact bytes_of_full full
  | block value =>
      change state.size < state.position + value.length at beyond
      have part : (value.take (state.size - state.position)).length =
          state.size - state.position := by
        rw [List.length_take]
        omega
      obtain ⟨t, copied, extended⟩ :=
        @memcpy_fits state (value.take (state.size - state.position)) (by omega)
      have full : t.position = t.size := by
        rw [extended.position, extended.size, part]
        omega
      refine ⟨t, ?_, ?_⟩
      · rw [RawWrite.perform, writeRawPtr, if_neg (by omega), if_neg (by omega), copied]
        change t.refreshBuffer.andThen _ = _
        rw [refreshBuffer, extended.output, single]
        rfl
      · have front : state.buffered.take state.size = state.buffered :=
          List.take_of_length_le (by rwa [buffered_length])
        rw [bytes_of_full full, extended.buffered, List.take_append, buffered_length, front]
        rfl

/-- A run of raw writes into a single buffer: everything is kept when it fits, and otherwise
as much of it as fits. -/
theorem run_single (writes : List RawWrite) {state : GPBOutputBufferState}
    (single : state.output = none) :
    if state.position + (contents writes).length ≤ state.size then
      ∃ t, run RawWrite.perform state writes = .done t ∧ Extended state (contents writes) t
    else
      ∃ t, run RawWrite.perform state writes = .raised .outOfSpace t ∧
        t.bytes = (state.buffered ++ contents writes).take state.size := by
  induction writes generalizing state with
  | nil =>
      have within : state.position ≤ state.size := state.within
      rw [contents_nil, List.length_nil, Nat.add_zero, if_pos within]
      exact ⟨state, rfl, rfl, rfl, (List.append_nil _).symm⟩
  | cons write writes ih =>
      have split : contents (write :: writes) = write.content ++ contents writes :=
        List.flatMap_cons
      rw [split, List.length_append]
      by_cases first : state.position + write.content.length ≤ state.size
      · obtain ⟨t, performed, extended⟩ := perform_fits first
        have next := ih (extended.output.trans single)
        rw [Runs.run_cons, performed, Runs.Outcome.done_andThen]
        rw [extended.position, extended.size, extended.buffered, List.append_assoc] at next
        rw [← Nat.add_assoc]
        split_ifs at next ⊢ with fits
        · obtain ⟨u, rest, more⟩ := next
          refine ⟨u, rest, more.output.trans extended.output, more.size.trans extended.size, ?_⟩
          rw [more.buffered, extended.buffered, List.append_assoc]
        · exact next
      · obtain ⟨t, raised, bytes⟩ := perform_outOfSpace single (Nat.not_le.mp first)
        rw [if_neg (by omega), Runs.run_cons, raised]
        refine ⟨t, rfl, ?_⟩
        have full : state.size ≤ (state.buffered ++ write.content).length := by
          rw [List.length_append, buffered_length]
          omega
        rw [bytes, ← List.append_assoc, List.take_append_of_le_length full]

/-- What the output stream has taken, and behind it what waits in the buffer. -/
def emitted (output : NSOutputStream) (state : GPBOutputBufferState) : NSData :=
  output.taken ++ state.buffered

theorem refreshBuffer_empty {state : GPBOutputBufferState} {output : NSOutputStream}
    (streaming : state.output = some output) (empty : state.position = 0) :
    state.refreshBuffer = .done state := by
  simp only [refreshBuffer, streaming, ne_eq, empty, not_true_eq_false, if_false]

theorem refreshBuffer_refused {state : GPBOutputBufferState} {output : NSOutputStream}
    (streaming : state.output = some output) (nonempty : state.position ≠ 0)
    (refused : output.accepts output.taken state.buffered ≠ state.position) :
    ∃ t, state.refreshBuffer = .raised .writeFailed t ∧
      t.output = some (output.write state.buffered).1 := by
  refine ⟨{ state with output := some (output.write state.buffered).1 }, ?_, rfl⟩
  rw [refreshBuffer, streaming]
  dsimp only
  rw [if_pos nonempty]
  exact if_pos refused

theorem refreshBuffer_taken {state : GPBOutputBufferState} {output : NSOutputStream}
    (streaming : state.output = some output) (nonempty : state.position ≠ 0)
    (accepted : output.accepts output.taken state.buffered = state.position) :
    ∃ t, state.refreshBuffer = .done t ∧ t.size = state.size ∧ t.position = 0 ∧
      t.output = some { output with taken := output.taken ++ state.buffered } := by
  have whole : (output.write state.buffered).1 =
      { output with taken := output.taken ++ state.buffered } := by
    have all : state.buffered.take (state.position : Int).toNat = state.buffered :=
      List.take_of_length_le (by rw [buffered_length, Int.toNat_natCast])
    rw [NSOutputStream.write, accepted]
    dsimp only
    rw [all]
  refine ⟨{ state with output := some (output.write state.buffered).1, position := 0
                       within := Nat.zero_le _ }, ?_, rfl, rfl, congrArg some whole⟩
  rw [refreshBuffer, streaming]
  dsimp only
  rw [if_pos nonempty]
  exact if_neg (not_not_intro accepted)

/-- What is left of a block once the buffer has been handed on. -/
def finish (state : GPBOutputBufferState) (rest : NSData) : WriteOutcome :=
  if rest.length ≤ state.size then state.memcpy rest else .done (state.writeThrough rest)

/-- A write that overflows the buffer fills it, hands it on and goes on with the rest. -/
theorem perform_over {state : GPBOutputBufferState} {write : RawWrite}
    (nonempty : 0 < state.size) (beyond : state.size < state.position + write.content.length) :
    ∃ full, Extended state (write.content.take (state.size - state.position)) full ∧
      full.position = full.size ∧
      (∀ e t, full.refreshBuffer = .raised e t → write.perform state = .raised e t) ∧
      ∀ t, full.refreshBuffer = .done t → t.size = state.size →
        write.perform state = t.finish (write.content.drop (state.size - state.position)) := by
  have within : state.position ≤ state.size := state.within
  cases write with
  | byte value =>
      change state.size < state.position + 1 at beyond
      have full : state.position = state.size := by omega
      refine ⟨state, ⟨rfl, rfl, ?_⟩, full, ?_, ?_⟩
      · rw [full, Nat.sub_self, List.take_zero, List.append_nil]
      · intro e t raised
        rw [RawWrite.perform, writeRawByte, if_pos full, raised]
        rfl
      · intro t refreshed same
        rw [RawWrite.perform, writeRawByte, if_pos full, refreshed, full, Nat.sub_self, finish]
        exact (if_pos (same ▸ nonempty)).symm
  | block value =>
      change state.size < state.position + value.length at beyond
      have part : (value.take (state.size - state.position)).length =
          state.size - state.position := by
        rw [List.length_take]
        omega
      obtain ⟨full, copied, extended⟩ :=
        @memcpy_fits state (value.take (state.size - state.position)) (by omega)
      refine ⟨full, extended, ?_, ?_, ?_⟩
      · rw [extended.position, extended.size, part]
        omega
      · intro e t raised
        rw [RawWrite.perform, writeRawPtr, if_neg (by omega), if_neg (by omega), copied]
        exact congrArg (Outcome.andThen · _) raised
      · intro t refreshed _
        rw [RawWrite.perform, writeRawPtr, if_neg (by omega), if_neg (by omega), copied]
        exact congrArg (Outcome.andThen · _) refreshed

/-- Only writes longer than the buffer must be taken whole: their answer is not looked at. -/
def TakesLarge (size : Nat) (accepts : NSData → NSData → Int) : Prop :=
  ∀ taken data, size < data.length → accepts taken data = data.length

/-- `t` has emitted `value` after `state` did, to the same stream. -/
def Streamed (accepts : NSData → NSData → Int) (size : Nat) (sent : NSData)
    (t : GPBOutputBufferState) : Prop :=
  t.size = size ∧ ∃ output, t.output = some output ∧ output.accepts = accepts ∧
    output.taken ++ t.buffered = sent

/-- The stream was offered the next block of what is sent and did not take it whole. It has what was
sent before, and what it has taken of the block. -/
def Refused (accepts : NSData → NSData → Int) (sent : NSData) (t : GPBOutputBufferState) : Prop :=
  ∃ (output : NSOutputStream) (block : NSData), output.accepts = accepts ∧
    output.taken ++ block <+: sent ∧ accepts output.taken block ≠ block.length ∧
      t.output = some (output.write block).1

theorem finish_streamed {state : GPBOutputBufferState} {output : NSOutputStream} {rest : NSData}
    (large : TakesLarge state.size output.accepts) (empty : state.position = 0)
    (streaming : state.output = some output) :
    match state.finish rest with
    | .done t => Streamed output.accepts state.size (output.taken ++ rest) t
    | .raised e t => e = .writeFailed ∧ Refused output.accepts (output.taken ++ rest) t := by
  have nothing : state.buffered = [] := by rw [buffered, empty, List.take_zero]
  unfold finish
  split_ifs with fits
  · obtain ⟨t, copied, extended⟩ := @memcpy_fits state rest (by omega)
    rw [copied]
    refine ⟨extended.size, output, extended.output.trans streaming, rfl, ?_⟩
    rw [extended.buffered, nothing, List.nil_append]
  · have answer := large output.taken rest (Nat.not_le.mp fits)
    have whole : (output.write rest).1.taken = output.taken ++ rest := by
      rw [NSOutputStream.write, answer, Int.toNat_natCast, List.take_length]
    refine ⟨rfl, (output.write rest).1, ?_, rfl, ?_⟩
    · rw [writeThrough, streaming]
      rfl
    · change (output.write rest).1.taken ++ state.buffered = _
      rw [nothing, whole, List.append_nil]

theorem perform_streamed {accepts : NSData → NSData → Int} {size : Nat} {sent : NSData}
    {state : GPBOutputBufferState} (nonempty : 0 < size) (large : TakesLarge size accepts)
    (streamed : Streamed accepts size sent state) (write : RawWrite) :
    match write.perform state with
    | .done t => Streamed accepts size (sent ++ write.content) t
    | .raised e t => e = .writeFailed ∧ Refused accepts (sent ++ write.content) t := by
  obtain ⟨rfl, output, streaming, rfl, rfl⟩ := streamed
  by_cases fits : state.position + write.content.length ≤ state.size
  · obtain ⟨t, performed, extended⟩ := perform_fits fits
    rw [performed]
    refine ⟨extended.size, output, extended.output.trans streaming, rfl, ?_⟩
    rw [extended.buffered, List.append_assoc]
  · obtain ⟨full, extended, atEnd, raises, continues⟩ :=
      perform_over nonempty (Nat.not_le.mp fits)
    have outputFull := extended.output.trans streaming
    have nonzero : full.position ≠ 0 := by
      rw [atEnd, extended.size]
      omega
    by_cases accepted : output.accepts output.taken full.buffered = full.position
    · obtain ⟨t, refreshed, sizeT, positionT, outputT⟩ :=
        refreshBuffer_taken outputFull nonzero accepted
      have sameSize := sizeT.trans extended.size
      rw [continues t refreshed sameSize]
      have sent : output.taken ++ full.buffered ++
          write.content.drop (state.size - state.position) =
            output.taken ++ state.buffered ++ write.content := by
        rw [extended.buffered]
        simp only [List.append_assoc, List.take_append_drop]
      rw [← sent, ← sameSize]
      exact finish_streamed (sameSize ▸ large) positionT outputT
    · obtain ⟨t, refused, outputT⟩ := refreshBuffer_refused outputFull nonzero accepted
      rw [raises _ t refused]
      refine ⟨rfl, output, full.buffered, rfl, ?_, by rwa [buffered_length], outputT⟩
      rw [extended.buffered, List.append_assoc, List.prefix_append_right_inj,
        List.prefix_append_right_inj]
      exact List.take_prefix _ _

theorem run_streamed {accepts : NSData → NSData → Int} {size : Nat} (nonempty : 0 < size)
    (large : TakesLarge size accepts) (writes : List RawWrite) {sent : NSData}
    {state : GPBOutputBufferState} (streamed : Streamed accepts size sent state) :
    match run RawWrite.perform state writes with
    | .done t => Streamed accepts size (sent ++ contents writes) t
    | .raised e t => e = .writeFailed ∧ Refused accepts (sent ++ contents writes) t := by
  induction writes generalizing state sent with
  | nil => simpa using streamed
  | cons write writes ih =>
      have split : contents (write :: writes) = write.content ++ contents writes :=
        List.flatMap_cons
      have first := perform_streamed nonempty large streamed write
      rw [Runs.run_cons, split, ← List.append_assoc]
      cases performed : write.perform state with
      | done t =>
          rw [performed] at first
          exact ih first
      | raised e t =>
          rw [performed] at first
          obtain ⟨same, output, block, accepting, front, refused⟩ := first
          exact ⟨same, output, block, accepting, front.trans (List.prefix_append _ _), refused⟩

theorem flush_streamed {accepts : NSData → NSData → Int} {size : Nat} {sent : NSData}
    {state : GPBOutputBufferState} (streamed : Streamed accepts size sent state) :
    match state.flush with
    | .done t => ∃ output, t.output = some output ∧ output.taken = sent
    | .raised e t => e = .writeFailed ∧ Refused accepts sent t := by
  obtain ⟨rfl, output, streaming, rfl, rfl⟩ := streamed
  rw [flush, streaming, Option.isSome_some, if_pos rfl]
  by_cases empty : state.position = 0
  · rw [refreshBuffer_empty streaming empty]
    refine ⟨output, streaming, ?_⟩
    rw [buffered, empty, List.take_zero, List.append_nil]
  · by_cases accepted : output.accepts output.taken state.buffered = state.position
    · obtain ⟨t, refreshed, _, _, outputT⟩ := refreshBuffer_taken streaming empty accepted
      rw [refreshed]
      exact ⟨_, outputT, rfl⟩
    · obtain ⟨t, refused, outputT⟩ := refreshBuffer_refused streaming empty accepted
      rw [refused]
      refine ⟨rfl, output, state.buffered, rfl, List.prefix_rfl, ?_, outputT⟩
      rwa [buffered_length]

/-- The raw writes of `op` have these bytes. -/
def Emits (op : GPBOutputBufferState → WriteOutcome) (bytes : NSData) : Prop :=
  ∃ writes, Makes op writes ∧ contents writes = bytes

theorem emits_nothing : Emits .done [] := ⟨[], performs_nothing, rfl⟩

theorem emits_byte (value : UInt8) : Emits (·.writeRawByte value) [value] :=
  ⟨[.byte value], makes_byte value, rfl⟩

theorem emits_block (value : NSData) : Emits (·.writeRawPtr value) value :=
  ⟨[.block value], makes_block value, contents_block value⟩

theorem emits_writeRawVarint {w : Nat} (value : BitVec w) :
    Emits (·.writeRawVarint value) (Varints.encode value.toNat) :=
  ⟨_, makes_writeRawVarint value, contents_bytes _⟩

theorem Emits.andThen {f g : GPBOutputBufferState → WriteOutcome} {front back : NSData}
    (first : Emits f front) (second : Emits g back) :
    Emits (fun state => (f state).andThen g) (front ++ back) := by
  obtain ⟨writes, makes, rfl⟩ := first
  obtain ⟨writes', makes', rfl⟩ := second
  exact ⟨writes ++ writes', makes.andThen makes', contents_append writes writes'⟩

/-- A loop over a list. -/
theorem emits_run {α : Type} {op : GPBOutputBufferState → α → WriteOutcome} {bytes : α → NSData}
    (emits : ∀ a, Emits (op · a) (bytes a)) (as : List α) :
    Emits (run op · as) (as.flatMap bytes) := by
  induction as with
  | nil => exact emits_nothing
  | cons a as ih =>
      rw [List.flatMap_cons]
      exact (emits a).andThen ih

theorem Emits.single {op : GPBOutputBufferState → WriteOutcome} {bytes : NSData}
    (emits : Emits op bytes) {state : GPBOutputBufferState} (single : state.output = none) :
    if state.position + bytes.length ≤ state.size then
      ∃ t, op state = .done t ∧ Extended state bytes t
    else
      ∃ t, op state = .raised .outOfSpace t ∧ t.bytes = (state.buffered ++ bytes).take state.size := by
  obtain ⟨writes, makes, rfl⟩ := emits
  rw [makes state]
  exact run_single writes single

/-- A buffer of the right size is filled. -/
theorem Emits.exact {op : GPBOutputBufferState → WriteOutcome} {bytes : NSData}
    (emits : Emits op bytes) {length : Nat} (right : length = bytes.length) :
    ∃ t, op (initWithData (dataWithLength length)) = .done t ∧ t.bytes = bytes := by
  have start : (initWithData (dataWithLength length)).output = none := rfl
  have size : (initWithData (dataWithLength length)).size = bytes.length :=
    List.length_replicate.trans right
  have position : (initWithData (dataWithLength length)).position = 0 := rfl
  have written := emits.single start
  rw [if_pos (by omega)] at written
  obtain ⟨t, done, extended⟩ := written
  have full : t.position = t.size := by
    rw [extended.position, extended.size, position, size, Nat.zero_add]
  refine ⟨t, done, ?_⟩
  rw [bytes_of_full full, extended.buffered]
  rfl

theorem Emits.streamed {op : GPBOutputBufferState → WriteOutcome} {bytes : NSData}
    (emits : Emits op bytes) {accepts : NSData → NSData → Int} {size : Nat} (nonempty : 0 < size)
    (large : TakesLarge size accepts) {sent : NSData} {state : GPBOutputBufferState}
    (streamed : Streamed accepts size sent state) :
    match op state with
    | .done t => Streamed accepts size (sent ++ bytes) t
    | .raised e t => e = .writeFailed ∧ Refused accepts (sent ++ bytes) t := by
  obtain ⟨writes, makes, rfl⟩ := emits
  rw [makes state]
  exact run_streamed nonempty large writes streamed

end GPBOutputBufferState
end LeptosMusic
