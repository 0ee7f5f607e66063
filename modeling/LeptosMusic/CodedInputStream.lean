import LeptosMusic.CodedValues

/-!
# The coded input stream

Positions and limits are `size_t`s, so a negative length wraps. `ahead` are the bytes up to the
limit; on a stream in order every read depends on these alone.
-/
namespace LeptosMusic

inductive GPBCodedInputStreamErrorCode where
  | invalidSize
  | subsectionLimitReached
  | invalidSubsectionLimit
  | invalidTag
  | invalidUTF8
  | invalidVarInt
  | recursionDepthExceeded
  deriving DecidableEq, Repr

/-- What parsing raises. `badAccess` is a read outside the data; `outOfFuel` is no exception of
the source but a loop that the model has cut off. -/
inductive ParseException where
  | codedInputStream (code : GPBCodedInputStreamErrorCode) (reason : Option String)
  | invalidArgumentException
  /-- A failed assertion. -/
  | internalInconsistencyException
  | badAccess
  | outOfFuel
  deriving DecidableEq, Repr

/-- An exception that the stream raises itself. -/
def ParseException.Listed (e : ParseException) : Prop :=
  ∃ code reason, e = .codedInputStream code reason

/-- `bufferSize` is the length of `bytes`. -/
structure GPBCodedInputStreamState where
  bytes : NSData
  bufferPos : Nat
  currentLimit : Nat
  lastTag : BitVec 32
  recursionDepth : Nat
  deriving DecidableEq

abbrev Reading := EStateM ParseException GPBCodedInputStreamState

/-- A signed size passed as a `size_t`. -/
def sizeT (size : BitVec 32) : Nat := (size.signExtend 64).toNat

namespace GPBCodedInputStreamState
open EStateM (Result)

def kDefaultRecursionLimit : Nat := 100

def bufferSize (state : GPBCodedInputStreamState) : Nat := state.bytes.length

/-- `initWithData:` -/
def initWithData (data : NSData) : GPBCodedInputStreamState :=
  { bytes := data, bufferPos := 0, currentLimit := data.length, lastTag := 0, recursionDepth := 0 }

def raiseException {α : Type} (code : GPBCodedInputStreamErrorCode) (reason : Option String) :
    Reading α := throw (.codedInputStream code reason)

def checkRecursionLimit : Reading Unit := fun state =>
  if state.recursionDepth ≥ kDefaultRecursionLimit then
    raiseException .recursionDepthExceeded none state
  else .ok () state

def checkSize (size : Nat) : Reading Unit := fun state =>
  let newSize := (state.bufferPos + size) % 2 ^ 64
  if newSize > state.bufferSize then raiseException .invalidSize none state
  else if newSize > state.currentLimit then
    raiseException .subsectionLimitReached none { state with bufferPos := state.currentLimit }
  else .ok () state

/-- The bytes at the position. -/
def peek (length : Nat) : Reading NSData := fun state =>
  if state.bufferPos + length ≤ state.bufferSize then
    .ok (ByteStrings.slice state.bufferPos length state.bytes) state
  else .error .badAccess state

/-- `bufferPos += size` -/
def advance (size : Nat) : Reading Unit := fun state =>
  .ok () { state with bufferPos := (state.bufferPos + size) % 2 ^ 64 }

/-- The check, the bytes and the step past them, which most reads share. -/
def readRaw (size : Nat) : Reading NSData := do
  checkSize size
  let bytes ← peek size
  advance size
  return bytes

def readRawByte : Reading UInt8 := return (← readRaw 1).headD 0

def readRawLittleEndian32 : Reading (BitVec 32) :=
  return BitVec.ofNat 32 (Varints.ofLittleEndian (← readRaw 4))

def readRawLittleEndian64 : Reading (BitVec 64) :=
  return BitVec.ofNat 64 (Varints.ofLittleEndian (← readRaw 8))

/-- The loop of `ReadRawVarint64`. -/
def readRawVarint64From (shift : Nat) (result : BitVec 64) : Reading (BitVec 64) :=
  if shift < 64 then do
    let b ← readRawByte
    let result := result ||| (b &&& 0x7F).toBitVec.setWidth 64 <<< shift
    if b &&& 0x80 = 0 then return result else readRawVarint64From (shift + 7) result
  else raiseException .invalidVarInt (some "Invalid VarInt64")
termination_by 64 - shift

def readRawVarint64 : Reading (BitVec 64) := readRawVarint64From 0 0

def readRawVarint32 : Reading (BitVec 32) := return (← readRawVarint64).setWidth 32

def skipRawData (size : Nat) : Reading Unit := do
  checkSize size
  advance size

def isAtEnd (state : GPBCodedInputStreamState) : Bool :=
  state.bufferPos == state.bufferSize || state.bufferPos == state.currentLimit

def setLastTag (tag : BitVec 32) : Reading Unit := fun state => .ok () { state with lastTag := tag }

def readTag : Reading (BitVec 32) := do
  if isAtEnd (← get) then
    setLastTag 0
    return 0
  else
    let tag ← readRawVarint32
    setLastTag tag
    -- Tags have to include a valid wireformat.
    if !GPBWireFormat.isValidTag tag then
      raiseException .invalidTag (some "Invalid wireformat in tag.")
    -- Zero is not a valid field number.
    else if GPBWireFormat.getTagFieldNumber tag = 0 then
      raiseException .invalidTag (some "A zero field number on the wire is invalid.")
    else return tag

/-- `initWithBytes:length:encoding:` gives `nil` for bytes that are not UTF-8, and consumes a byte
order mark in front of the others. -/
def stringWithUTF8 (bytes : NSData) : Option NSString :=
  (Unicode.decodeUtf8 bytes).map fun text => Unicode.utf16 (Unicode.dropMark text)

def readRetainedString : Reading NSString := do
  let size ← readRawVarint32
  if size = 0 then return []
  else
    let bytes ← readRaw (sizeT size)
    match stringWithUTF8 bytes with
    | some result => return result
    | none => raiseException .invalidUTF8 none

/-- `nil` for a negative size. -/
def readRetainedBytes : Reading (Option NSData) := do
  let size ← readRawVarint32
  if size.toInt < 0 then return none
  else return some (← readRaw (sizeT size))

def pushLimit (byteLimit : Nat) : Reading Nat := fun state =>
  let byteLimit := (byteLimit + state.bufferPos) % 2 ^ 64
  let oldLimit := state.currentLimit
  if byteLimit > oldLimit then raiseException .invalidSubsectionLimit none state
  else .ok oldLimit { state with currentLimit := byteLimit }

def popLimit (oldLimit : Nat) : Reading Unit := fun state =>
  .ok () { state with currentLimit := oldLimit }

def bytesUntilLimit : Reading Nat := fun state =>
  .ok (nsUInteger (state.currentLimit - state.bufferPos)) state

def checkLastTagWas (value : BitVec 32) : Reading Unit := fun state =>
  if state.lastTag ≠ value then raiseException .invalidTag (some "Unexpected tag read") state
  else .ok () state

/-- `++recursionDepth` -/
def enter : Reading Unit := fun state =>
  .ok () { state with recursionDepth := state.recursionDepth + 1 }

/-- `--recursionDepth` -/
def leave : Reading Unit := fun state =>
  .ok () { state with recursionDepth := state.recursionDepth - 1 }

/-- The `GPBCodedInputStreamRead…` of the type; the one of data gives `nil` for a negative
size. -/
def readNoTag : (type : PlainType) → Reading (Option type.Value)
  | .bool => return some (decide ((← readRawVarint32) ≠ 0))
  | .fixed32 => return some (← readRawLittleEndian32)
  | .sfixed32 => return some (← readRawLittleEndian32)
  | .float => return some (← readRawLittleEndian32)
  | .fixed64 => return some (← readRawLittleEndian64)
  | .sfixed64 => return some (← readRawLittleEndian64)
  | .double => return some (← readRawLittleEndian64)
  | .int32 => return some (← readRawVarint32)
  | .int64 => return some (← readRawVarint64)
  | .sint32 => return some (GPBDecodeZigZag32 (← readRawVarint32))
  | .sint64 => return some (GPBDecodeZigZag64 (← readRawVarint64))
  | .uint32 => return some (← readRawVarint32)
  | .uint64 => return some (← readRawVarint64)
  | .bytes => readRetainedBytes
  | .string => return some (← readRetainedString)
  | .enum => return some (← readRawVarint32)

/-- The position is before the limit and the limit within the data. -/
structure Ordered (state : GPBCodedInputStreamState) : Prop where
  position : state.bufferPos ≤ state.currentLimit
  limit : state.currentLimit ≤ state.bytes.length
  size : state.bytes.length < 2 ^ 62

/-- The bytes from the position to the limit. -/
def ahead (state : GPBCodedInputStreamState) : NSData :=
  (state.bytes.take state.currentLimit).drop state.bufferPos

def skip (state : GPBCodedInputStreamState) (n : Nat) : GPBCodedInputStreamState :=
  { state with bufferPos := state.bufferPos + n }

variable {state : GPBCodedInputStreamState}

@[simp] theorem skip_zero : state.skip 0 = state := rfl

@[simp] theorem skip_skip (m n : Nat) : (state.skip m).skip n = state.skip (m + n) := by
  simp only [skip, Nat.add_assoc]

@[simp] theorem ahead_skip (n : Nat) : (state.skip n).ahead = state.ahead.drop n := by
  rw [ahead, ahead, List.drop_drop]
  rfl

theorem Ordered.ahead_length (ordered : Ordered state) :
    state.ahead.length = state.currentLimit - state.bufferPos := by
  rw [ahead, List.length_drop, List.length_take, Nat.min_eq_left ordered.limit]

theorem Ordered.skip (ordered : Ordered state) {n : Nat} (inside : n ≤ state.ahead.length) :
    Ordered (state.skip n) where
  position := by
    rw [ordered.ahead_length] at inside
    have := ordered.position
    change state.bufferPos + n ≤ state.currentLimit
    omega
  limit := ordered.limit
  size := ordered.size

theorem isAtEnd_iff (ordered : Ordered state) : isAtEnd state = true ↔ state.ahead = [] := by
  have := ordered.position
  have := ordered.limit
  rw [← List.length_eq_zero_iff, ordered.ahead_length, isAtEnd, bufferSize, Bool.or_eq_true,
    beq_iff_eq, beq_iff_eq]
  omega

theorem bind_ok {α β : Type} {x : Reading α} {f : α → Reading β} {a : α}
    {t : GPBCodedInputStreamState} (h : x state = .ok a t) : (x >>= f) state = f a t := by
  change EStateM.bind x f state = _
  rw [EStateM.bind, h]

theorem bind_error {α β : Type} {x : Reading α} {f : α → Reading β} {e : ParseException}
    {t : GPBCodedInputStreamState} (h : x state = .error e t) : (x >>= f) state = .error e t := by
  change EStateM.bind x f state = _
  rw [EStateM.bind, h]

theorem get_eq (state : GPBCodedInputStreamState) : (get : Reading _) state = .ok state state := rfl

theorem checkSize_ahead (ordered : Ordered state) {size : Nat}
    (inside : size ≤ state.ahead.length) : checkSize size state = .ok () state := by
  have := ordered.position
  have := ordered.limit
  have := ordered.size
  rw [ordered.ahead_length] at inside
  have small : (state.bufferPos + size) % 2 ^ 64 = state.bufferPos + size :=
    Nat.mod_eq_of_lt (by omega)
  rw [checkSize, small]
  rw [if_neg (by rw [bufferSize]; omega), if_neg (by omega)]

theorem checkSize_short (ordered : Ordered state) {size : Nat}
    (short : state.ahead.length < size) (bound : size < 2 ^ 63) :
    ∃ e t, checkSize size state = .error e t ∧ e.Listed := by
  have := ordered.position
  have := ordered.limit
  have := ordered.size
  rw [ordered.ahead_length] at short
  have small : (state.bufferPos + size) % 2 ^ 64 = state.bufferPos + size :=
    Nat.mod_eq_of_lt (by omega)
  rw [checkSize, small]
  by_cases outside : state.bufferPos + size > state.bufferSize
  · rw [if_pos outside]
    exact ⟨_, _, rfl, _, _, rfl⟩
  · rw [if_neg outside, if_pos (by omega)]
    exact ⟨_, _, rfl, _, _, rfl⟩

theorem advance_ahead (ordered : Ordered state) {size : Nat}
    (inside : size ≤ state.ahead.length) : advance size state = .ok () (state.skip size) := by
  have := ordered.position
  have := ordered.limit
  have := ordered.size
  rw [ordered.ahead_length] at inside
  have small : (state.bufferPos + size) % 2 ^ 64 = state.bufferPos + size :=
    Nat.mod_eq_of_lt (by omega)
  rw [advance, small]
  rfl

theorem peek_ahead (ordered : Ordered state) {length : Nat}
    (inside : length ≤ state.ahead.length) :
    peek length state = .ok (state.ahead.take length) state := by
  have := ordered.position
  have := ordered.limit
  rw [ordered.ahead_length] at inside
  have same : ByteStrings.slice state.bufferPos length state.bytes = state.ahead.take length := by
    rw [ByteStrings.slice, ahead, List.drop_take, List.take_take, Nat.min_eq_left inside]
  rw [peek, if_pos (by rw [bufferSize]; omega), same]

theorem readRaw_ahead (ordered : Ordered state) {size : Nat} (inside : size ≤ state.ahead.length) :
    readRaw size state = .ok (state.ahead.take size) (state.skip size) := by
  rw [readRaw, bind_ok (checkSize_ahead ordered inside), bind_ok (peek_ahead ordered inside),
    bind_ok (advance_ahead ordered inside)]
  rfl

theorem readRaw_short (ordered : Ordered state) {size : Nat} (short : state.ahead.length < size)
    (bound : size < 2 ^ 63) : ∃ e t, readRaw size state = .error e t ∧ e.Listed := by
  obtain ⟨e, t, raised, listed⟩ := checkSize_short ordered short bound
  exact ⟨e, t, bind_error raised, listed⟩

/-- `read` raises an exception of the stream, or steps over `n` bytes ahead and gives a value
for which `P` holds. -/
def Meets {α : Type} (read : Reading α) (P : α → Nat → Prop) : Prop :=
  ∀ state, Ordered state → match read state with
    | .ok a t => ∃ n ≤ state.ahead.length, t = state.skip n ∧ P a n
    | .error e _ => e.Listed

theorem Meets.mono {α : Type} {read : Reading α} {P Q : α → Nat → Prop} (meets : Meets read P)
    (weaker : ∀ a n, P a n → Q a n) : Meets read Q := by
  intro state ordered
  have here := meets state ordered
  cases outcome : read state with
  | error e t =>
      rw [outcome] at here
      exact here
  | ok a t =>
      rw [outcome] at here
      obtain ⟨n, inside, same, holds⟩ := here
      exact ⟨n, inside, same, weaker a n holds⟩

theorem meets_pure {α : Type} {a : α} {P : α → Nat → Prop} (holds : P a 0) : Meets (pure a) P :=
  fun _ _ => ⟨0, Nat.zero_le _, rfl, holds⟩

theorem Meets.bind {α β : Type} {read : Reading α} {next : α → Reading β} {P : α → Nat → Prop}
    {Q : β → Nat → Prop} (first : Meets read P)
    (rest : ∀ a n, P a n → Meets (next a) fun b k => Q b (n + k)) : Meets (read >>= next) Q := by
  intro state ordered
  have here := first state ordered
  cases outcome : read state with
  | error e t =>
      rw [bind_error outcome]
      rw [outcome] at here
      exact here
  | ok a t =>
      rw [outcome] at here
      obtain ⟨n, inside, rfl, holds⟩ := here
      rw [bind_ok outcome]
      have later := rest a n holds (state.skip n) (ordered.skip inside)
      cases outcome' : next a (state.skip n) with
      | error e u =>
          rw [outcome'] at later
          exact later
      | ok b u =>
          rw [outcome'] at later
          obtain ⟨k, inside', rfl, holds'⟩ := later
          rw [ahead_skip, List.length_drop] at inside'
          exact ⟨n + k, by omega, skip_skip n k, holds'⟩

theorem meets_readRaw {size : Nat} (bound : size < 2 ^ 63) :
    Meets (readRaw size) fun bytes n => n = size ∧ bytes.length = size := by
  intro state ordered
  by_cases inside : size ≤ state.ahead.length
  · rw [readRaw_ahead ordered inside]
    exact ⟨size, inside, rfl, rfl, List.length_take_of_le inside⟩
  · obtain ⟨e, t, raised, listed⟩ := readRaw_short ordered (Nat.not_le.mp inside) bound
    rw [raised]
    exact listed

theorem meets_readRawLittleEndian32 : Meets readRawLittleEndian32 fun _ n => 1 ≤ n := by
  apply (meets_readRaw (by decide)).bind
  rintro bytes n ⟨rfl, _⟩
  exact meets_pure (by decide)

theorem meets_readRawLittleEndian64 : Meets readRawLittleEndian64 fun _ n => 1 ≤ n := by
  apply (meets_readRaw (by decide)).bind
  rintro bytes n ⟨rfl, _⟩
  exact meets_pure (by decide)

/-- `read` takes exactly these bytes from what is ahead, and gives this value. -/
def Reads {α : Type} (read : Reading α) (bytes : NSData) (a : α) : Prop :=
  ∀ state, Ordered state → ∀ rest, state.ahead = bytes ++ rest →
    read state = .ok a (state.skip bytes.length)

theorem reads_pure {α : Type} (a : α) : Reads (pure a) [] a := fun _ _ _ _ => rfl

theorem Reads.bind {α β : Type} {read : Reading α} {next : α → Reading β} {front back : NSData}
    {a : α} {b : β} (first : Reads read front a) (second : Reads (next a) back b) :
    Reads (read >>= next) (front ++ back) b := by
  intro state ordered rest same
  rw [List.append_assoc] at same
  have inside : front.length ≤ state.ahead.length := by
    rw [same, List.length_append]
    exact Nat.le_add_right _ _
  have after : (state.skip front.length).ahead = back ++ rest := by
    rw [ahead_skip, same, List.drop_left]
  rw [bind_ok (first state ordered _ same), second _ (ordered.skip inside) rest after,
    skip_skip, List.length_append]

/-- What follows takes no bytes. -/
theorem Reads.followed {α β : Type} {read : Reading α} {next : α → Reading β} {bytes : NSData}
    {a : α} {b : β} (first : Reads read bytes a) (second : Reads (next a) [] b) :
    Reads (read >>= next) bytes b := by
  have composed := first.bind second
  rwa [List.append_nil] at composed

theorem Reads.map {α β : Type} {read : Reading α} {bytes : NSData} {a : α}
    (reads : Reads read bytes a) (f : α → β) : Reads (do return f (← read)) bytes (f a) :=
  reads.followed (reads_pure (f a))

theorem reads_readRaw (bytes : NSData) : Reads (readRaw bytes.length) bytes bytes := by
  intro state ordered rest same
  rw [readRaw_ahead ordered (by rw [same, List.length_append]; omega), same, List.take_left]

theorem readRawByte_cons (ordered : Ordered state) {b : UInt8} {rest : NSData}
    (same : state.ahead = b :: rest) : readRawByte state = .ok b (state.skip 1) := by
  have inside : 1 ≤ state.ahead.length := by rw [same, List.length_cons]; omega
  rw [readRawByte, bind_ok (readRaw_ahead ordered inside), same]
  rfl

theorem readRawByte_nil (ordered : Ordered state) (same : state.ahead = []) :
    ∃ e t, readRawByte state = .error e t ∧ e.Listed := by
  obtain ⟨e, t, raised, listed⟩ :=
    @readRaw_short state ordered 1 (by rw [same, List.length_nil]; omega) (by omega)
  exact ⟨e, t, bind_error raised, listed⟩

/-- Seven more bits are added above those read so far. -/
theorem group_add {shift : Nat} {result : BitVec 64} (low : result.toNat < 2 ^ shift) (b : UInt8) :
    result ||| (b &&& 0x7F).toBitVec.setWidth 64 <<< shift =
      result + BitVec.ofNat 64 (b.toNat % 128 * 2 ^ shift) := by
  have bits : (b &&& 0x7F).toBitVec.setWidth 64 <<< shift =
      BitVec.ofNat 64 (b.toNat % 128 * 2 ^ shift) := by
    have group : (b &&& 0x7F).toNat = b.toNat % 128 := by
      rw [UInt8.toNat_and]
      exact Nat.and_two_pow_sub_one_eq_mod b.toNat 7
    apply BitVec.eq_of_toNat_eq
    rw [BitVec.toNat_shiftLeft, BitVec.toNat_setWidth, UInt8.toNat_toBitVec, group,
      Nat.shiftLeft_eq, BitVec.toNat_ofNat, Nat.mod_eq_of_lt (a := b.toNat % 128) (by omega)]
  have apart : result &&& (b &&& 0x7F).toBitVec.setWidth 64 <<< shift = 0#64 := by
    ext i inside
    rw [BitVec.getElem_and, BitVec.getElem_shiftLeft, BitVec.getElem_zero,
      ← BitVec.getLsbD_eq_getElem]
    by_cases below : i < shift
    · simp only [decide_eq_true below, Bool.not_true, Bool.false_and, Bool.and_false]
    · have power : 2 ^ shift ≤ 2 ^ i := Nat.pow_le_pow_right (by decide) (Nat.not_lt.mp below)
      have bit : result.getLsbD i = false := by
        rw [← BitVec.testBit_toNat]
        exact Nat.testBit_lt_two_pow (Nat.lt_of_lt_of_le low power)
      rw [bit, Bool.false_and]
  rw [← BitVec.add_eq_or_of_and_eq_zero _ _ apart, bits]

theorem group_lt {shift : Nat} {result : BitVec 64} (low : result.toNat < 2 ^ shift) (b : UInt8) :
    (result ||| (b &&& 0x7F).toBitVec.setWidth 64 <<< shift).toNat < 2 ^ (shift + 7) := by
  have group : b.toNat % 128 * 2 ^ shift ≤ 127 * 2 ^ shift := Nat.mul_le_mul_right _ (by omega)
  have modulo := Nat.mod_le (b.toNat % 128 * 2 ^ shift) (2 ^ 64)
  have sum := Nat.mod_le (result.toNat + b.toNat % 128 * 2 ^ shift % 2 ^ 64) (2 ^ 64)
  rw [group_add low, BitVec.toNat_add, BitVec.toNat_ofNat, Nat.pow_add]
  omega

theorem lastByte_iff (b : UInt8) : b &&& 0x80 = 0 ↔ b.toNat < 128 := by
  rw [← UInt8.toBitVec_inj]
  apply GPBOutputBufferState.and_eq_zero_iff_lt (k := 7)
  decide

/-- The loop reads the varint ahead, modulo `2 ^ 64`. -/
theorem readRawVarint64From_eq (groups : Nat) {shift : Nat} {result : BitVec 64}
    (left : shift + 7 * groups = 70) (low : result.toNat < 2 ^ shift) (ordered : Ordered state) :
    match Varints.decode groups state.ahead with
    | some (n, rest) => ∃ front, state.ahead = front ++ rest ∧
        readRawVarint64From shift result state =
          .ok (result + BitVec.ofNat 64 (n * 2 ^ shift)) (state.skip front.length)
    | none => ∃ e t, readRawVarint64From shift result state = .error e t ∧ e.Listed := by
  induction groups generalizing shift result state with
  | zero =>
      rw [readRawVarint64From, if_neg (by omega)]
      exact ⟨_, _, rfl, _, _, rfl⟩
  | succ groups ih =>
      rw [readRawVarint64From, if_pos (by omega)]
      cases same : state.ahead with
      | nil =>
          obtain ⟨e, t, raised, listed⟩ := readRawByte_nil ordered same
          exact ⟨e, t, bind_error raised, listed⟩
      | cons b bytes =>
          rw [bind_ok (readRawByte_cons ordered same)]
          have inside : 1 ≤ state.ahead.length := by rw [same, List.length_cons]; omega
          have after : (state.skip 1).ahead = bytes := by rw [ahead_skip, same]; rfl
          by_cases last : b.toNat < 128
          · rw [if_pos ((lastByte_iff b).mpr last), Varints.decode_last bytes last, group_add low,
              Nat.mod_eq_of_lt last]
            exact ⟨[b], rfl, rfl⟩
          · rw [if_neg ((lastByte_iff b).not.mpr last), Varints.decode_more bytes (by omega)]
            have next := ih (by omega) (group_lt low b) (ordered.skip inside)
            rw [after] at next
            cases later : Varints.decode groups bytes with
            | none =>
                rw [later] at next
                exact next
            | some read =>
                obtain ⟨n, rest⟩ := read
                rw [later] at next
                obtain ⟨front, rfl, found⟩ := next
                refine ⟨b :: front, rfl, ?_⟩
                have sum : b.toNat % 128 * 2 ^ shift + n * 2 ^ (shift + 7) =
                    (b.toNat % 128 + 128 * n) * 2 ^ shift := by
                  rw [Nat.pow_add]
                  ring
                rw [found, group_add low, skip_skip, List.length_cons, Nat.add_comm 1,
                  BitVec.add_assoc, ← BitVec.ofNat_add, sum]

theorem readRawVarint64_eq (ordered : Ordered state) :
    match Varints.decode 10 state.ahead with
    | some (n, rest) => ∃ front, state.ahead = front ++ rest ∧
        readRawVarint64 state = .ok (BitVec.ofNat 64 n) (state.skip front.length)
    | none => ∃ e t, readRawVarint64 state = .error e t ∧ e.Listed := by
  have start (x : BitVec 64) : 0 + x = x := by simp
  have loop := readRawVarint64From_eq 10 (rfl : 0 + 7 * 10 = 70)
    (by decide : (0 : BitVec 64).toNat < 2 ^ 0) ordered
  simpa only [readRawVarint64, Nat.pow_zero, Nat.mul_one, start] using loop

theorem meets_readRawVarint64 : Meets readRawVarint64 fun _ n => 1 ≤ n := by
  intro state ordered
  have read := readRawVarint64_eq ordered
  cases decoded : Varints.decode 10 state.ahead with
  | none =>
      rw [decoded] at read
      obtain ⟨e, t, raised, listed⟩ := read
      rw [raised]
      exact listed
  | some found =>
      obtain ⟨n, rest⟩ := found
      rw [decoded] at read
      obtain ⟨front, same, value⟩ := read
      obtain ⟨front', same', nonempty, _⟩ := Varints.decode_sound decoded
      obtain rfl := List.append_cancel_right (same.symm.trans same')
      rw [value]
      refine ⟨front.length, ?_, rfl, List.length_pos_iff.mpr nonempty⟩
      rw [same, List.length_append]
      exact Nat.le_add_right _ _

theorem reads_readRawVarint64 {n : Nat} (bound : n < 2 ^ 64) :
    Reads readRawVarint64 (Varints.encode n) (BitVec.ofNat 64 n) := by
  intro state ordered rest same
  have short : (Varints.encode n).length ≤ 10 :=
    (Varints.encode_length_le_iff n 9).mpr (Nat.lt_trans bound (by decide))
  have read := readRawVarint64_eq ordered
  rw [same, Varints.decode_encode short rest] at read
  obtain ⟨front, cut, value⟩ := read
  obtain rfl := List.append_cancel_right cut
  exact value

theorem meets_readRawVarint32 : Meets readRawVarint32 fun _ n => 1 ≤ n :=
  meets_readRawVarint64.bind fun _ _ some => meets_pure some

theorem reads_readRawVarint32 {n : Nat} (bound : n < 2 ^ 64) :
    Reads readRawVarint32 (Varints.encode n) (BitVec.ofNat 32 n) := by
  have read := (reads_readRawVarint64 bound).map (BitVec.setWidth 32)
  rwa [BitVec.setWidth_ofNat_of_le (by decide)] at read

def retag (state : GPBCodedInputStreamState) (tag : BitVec 32) : GPBCodedInputStreamState :=
  { state with lastTag := tag }

@[simp] theorem ahead_retag (tag : BitVec 32) : (state.retag tag).ahead = state.ahead := rfl

@[simp] theorem recursionDepth_retag (tag : BitVec 32) :
    (state.retag tag).recursionDepth = state.recursionDepth := rfl

@[simp] theorem recursionDepth_skip (n : Nat) :
    (state.skip n).recursionDepth = state.recursionDepth := rfl

@[simp] theorem lastTag_retag (tag : BitVec 32) : (state.retag tag).lastTag = tag := rfl

@[simp] theorem retag_retag (tag tag' : BitVec 32) :
    (state.retag tag).retag tag' = state.retag tag' := rfl

@[simp] theorem skip_retag (tag : BitVec 32) (n : Nat) :
    (state.retag tag).skip n = (state.skip n).retag tag := rfl

theorem Ordered.retag (ordered : Ordered state) (tag : BitVec 32) : Ordered (state.retag tag) :=
  ⟨ordered.position, ordered.limit, ordered.size⟩

/-- The state inside a group or a message. -/
def deeper (state : GPBCodedInputStreamState) : GPBCodedInputStreamState :=
  { state with recursionDepth := state.recursionDepth + 1 }

@[simp] theorem ahead_deeper : state.deeper.ahead = state.ahead := rfl

@[simp] theorem recursionDepth_deeper :
    state.deeper.recursionDepth = state.recursionDepth + 1 := rfl

theorem Ordered.deeper (ordered : Ordered state) : Ordered state.deeper :=
  ⟨ordered.position, ordered.limit, ordered.size⟩

theorem enter_eq (state : GPBCodedInputStreamState) : enter state = .ok () state.deeper := rfl

theorem leave_eq (state : GPBCodedInputStreamState) (n : Nat) (tag : BitVec 32) :
    leave ((state.deeper.skip n).retag tag) = .ok () ((state.skip n).retag tag) := rfl

theorem checkRecursionLimit_ok (room : state.recursionDepth < kDefaultRecursionLimit) :
    checkRecursionLimit state = .ok () state := if_neg (Nat.not_le.mpr room)

theorem checkLastTagWas_ok {value : BitVec 32} (same : state.lastTag = value) :
    checkLastTagWas value state = .ok () state := if_neg (not_not_intro same)

theorem readTag_end (ordered : Ordered state) (nothing : state.ahead = []) :
    readTag state = .ok 0 (state.retag 0) := by
  have atEnd := (isAtEnd_iff ordered).mpr nothing
  rw [readTag, bind_ok (get_eq state), if_pos atEnd]
  rfl

/-- What follows the number of a tag once it has been read. -/
theorem readTag_more (ordered : Ordered state) (something : state.ahead ≠ []) :
    readTag state = (readRawVarint32 >>= fun tag => setLastTag tag >>= fun _ =>
      if !GPBWireFormat.isValidTag tag then
        raiseException .invalidTag (some "Invalid wireformat in tag.")
      else if GPBWireFormat.getTagFieldNumber tag = 0 then
        raiseException .invalidTag (some "A zero field number on the wire is invalid.")
      else pure tag) state := by
  rw [readTag, bind_ok (get_eq state), if_neg ((isAtEnd_iff ordered).not.mpr something)]

theorem readTag_tagBytes (ordered : Ordered state) {number : BitVec 32}
    (valid : GPBWireFormat.FieldNumber number) (format : GPBWireFormat) {rest : NSData}
    (same : state.ahead = tagBytes number format ++ rest) :
    readTag state = .ok (GPBWireFormat.makeTag number format)
      ((state.skip (tagBytes number format).length).retag (GPBWireFormat.makeTag number format)) := by
  have something : state.ahead ≠ [] := by
    rw [same]
    exact List.append_ne_nil_of_left_ne_nil (Varints.encode_ne_nil _) rest
  have read := reads_readRawVarint32
    (Nat.lt_trans (GPBWireFormat.makeTag number format).isLt (by decide)) state ordered rest same
  rw [BitVec.ofNat_toNat, BitVec.setWidth_eq] at read
  have nonzero : GPBWireFormat.getTagFieldNumber (GPBWireFormat.makeTag number format) ≠ 0 := by
    rw [GPBWireFormat.getTagFieldNumber_makeTag valid]
    rintro rfl
    exact absurd valid.1 (by decide)
  rw [readTag_more ordered something, bind_ok read, GPBWireFormat.isValidTag_makeTag valid,
    if_neg nonzero]
  rfl

/-- Any tag that is read names a field and a format. -/
theorem readTag_any (ordered : Ordered state) (something : state.ahead ≠ []) :
    match readTag state with
    | .ok tag t => ∃ n, 1 ≤ n ∧ n ≤ state.ahead.length ∧ t = (state.skip n).retag tag ∧
        GPBWireFormat.isValidTag tag = true ∧
          GPBWireFormat.FieldNumber (GPBWireFormat.getTagFieldNumber tag)
    | .error e _ => e.Listed := by
  have number := meets_readRawVarint32 state ordered
  rw [readTag_more ordered something]
  cases outcome : readRawVarint32 state with
  | error e t =>
      rw [bind_error outcome]
      rw [outcome] at number
      exact number
  | ok tag t =>
      rw [outcome] at number
      obtain ⟨n, inside, rfl, positive⟩ := number
      rw [bind_ok outcome]
      change match (if _ then _ else _ : Reading (BitVec 32)) ((state.skip n).retag tag) with
        | .ok _ _ => _
        | .error _ _ => _
      by_cases valid : GPBWireFormat.isValidTag tag = true
      · by_cases zero : GPBWireFormat.getTagFieldNumber tag = 0
        · simp only [valid, Bool.not_true, Bool.false_eq_true, if_false, zero, if_true]
          exact ⟨_, _, rfl⟩
        · simp only [valid, Bool.not_true, Bool.false_eq_true, if_false, zero]
          exact ⟨n, positive, inside, rfl, valid,
            GPBWireFormat.fieldNumber_getTagFieldNumber zero⟩
      · rw [Bool.not_eq_true] at valid
        simp only [valid, Bool.not_false, if_true]
        exact ⟨_, _, rfl⟩

theorem sizeT_nonneg {size : BitVec 32} (nonneg : 0 ≤ size.toInt) : sizeT size = size.toNat :=
  GPBOutputBufferState.signExtend_nonneg nonneg

theorem toInt_ofNat_small {n : Nat} (small : n < 2 ^ 31) : (BitVec.ofNat 32 n).toInt = n := by
  have low : n % 2 ^ 32 = n := Nat.mod_eq_of_lt (by omega)
  rw [BitVec.toInt_eq_toNat_of_lt (by rw [BitVec.toNat_ofNat, low]; omega), BitVec.toNat_ofNat, low]

/-- A length that is not negative is followed by that many bytes. -/
theorem reads_lengthPrefixed {α : Type} {bytes : NSData} (small : bytes.length < 2 ^ 31)
    {next : BitVec 32 → Reading α} {a : α}
    (reads : ∀ size : BitVec 32, size.toInt = bytes.length → Reads (next size) bytes a) :
    Reads (readRawVarint32 >>= next) (lengthPrefixed bytes) a := by
  have low : bytes.length % 2 ^ 32 = bytes.length := Nat.mod_eq_of_lt (by omega)
  rw [lengthPrefixed, low]
  exact (reads_readRawVarint32 (by omega)).bind (reads _ (toInt_ofNat_small small))

theorem sizeT_eq {size : BitVec 32} {n : Nat} (length : size.toInt = n) : sizeT size = n := by
  rw [sizeT_nonneg (by omega)]
  have value := BitVec.toInt_eq_toNat_cond size
  split_ifs at value <;> omega

theorem reads_readRaw_sizeT {bytes : NSData} {size : BitVec 32} (length : size.toInt = bytes.length) :
    Reads (readRaw (sizeT size)) bytes bytes := by
  rw [sizeT_eq length]
  exact reads_readRaw bytes

theorem reads_readRetainedBytes {bytes : NSData} (small : bytes.length < 2 ^ 31) :
    Reads readRetainedBytes (lengthPrefixed bytes) (some bytes) := by
  apply reads_lengthPrefixed small
  intro size length
  rw [if_neg (by omega)]
  exact (reads_readRaw_sizeT length).map some

theorem stringWithUTF8_utf8Data {string : NSString} {bytes : NSData}
    (encoded : utf8Data string = some bytes) :
    stringWithUTF8 bytes = some (Unicode.withoutMark string) := by
  obtain ⟨text, read, rfl⟩ := Option.map_eq_some_iff.mp encoded
  rw [stringWithUTF8, Unicode.decodeUtf8_utf8, Option.map_some, Unicode.utf16_dropMark,
    Unicode.utf16_of_characters read]

theorem reads_readRetainedString {string : NSString} {bytes : NSData}
    (encoded : utf8Data string = some bytes) (small : bytes.length < 2 ^ 31) :
    Reads readRetainedString (lengthPrefixed bytes) (Unicode.withoutMark string) := by
  have decoded := stringWithUTF8_utf8Data encoded
  apply reads_lengthPrefixed small
  intro size length
  by_cases empty : size = 0
  · subst empty
    obtain rfl : bytes = [] := List.length_eq_zero_iff.mp (Int.ofNat.inj length.symm)
    have nothing : stringWithUTF8 [] = some [] := rfl
    rw [if_pos rfl, ← Option.some.inj (nothing.symm.trans decoded)]
    exact reads_pure []
  · rw [if_neg empty]
    have read : Reads (readRaw (sizeT size) >>= fun bytes => match stringWithUTF8 bytes with
        | some result => pure result
        | none => raiseException .invalidUTF8 none) (bytes ++ [])
        (Unicode.withoutMark string) := by
      apply (reads_readRaw_sizeT length).bind
      rw [decoded]
      exact reads_pure _
    rwa [List.append_nil] at read

end GPBCodedInputStreamState

/-- Lengths fit in 31 bits and strings have an encoding. -/
def PlainType.Encodable : (type : PlainType) → type.Value → Prop
  | .bytes, value => List.length value < 2 ^ 31
  | .string, value => ∃ bytes, utf8Data value = some bytes ∧ bytes.length < 2 ^ 31
  | _, _ => True

/-- What comes back of a value: a byte order mark in front of a string is consumed. -/
def PlainType.received : (type : PlainType) → type.Value → type.Value
  | .string, value => Unicode.withoutMark value
  | _, value => value

/-- A string does not begin with a byte order mark. -/
def PlainType.Unmarked : (type : PlainType) → type.Value → Prop
  | .string, value => Unicode.Unmarked value
  | _, _ => True

theorem PlainType.encodable_received {string : NSString}
    (encodable : PlainType.string.Encodable string) :
    PlainType.string.Encodable (PlainType.string.received string) := by
  obtain ⟨bytes, encoded, small⟩ := encodable
  obtain ⟨text, read, rfl⟩ := Option.map_eq_some_iff.mp encoded
  refine ⟨Unicode.utf8 (Unicode.dropMark text), ?_, ?_⟩
  · rw [received, ← Unicode.utf16_of_characters read, ← Unicode.utf16_dropMark, utf8Data,
      Unicode.characters_utf16, Option.map_some]
  · exact Nat.lt_of_le_of_lt (Unicode.length_utf8_dropMark text) small

theorem PlainType.received_eq {type : PlainType} {value : type.Value}
    (unmarked : type.Unmarked value) : type.received value = value := by
  cases type <;> first | rfl | exact Unicode.withoutMark_eq unmarked

namespace GPBCodedInputStreamState

theorem reads_word32 (value : BitVec 32) :
    Reads readRawLittleEndian32 (Varints.littleEndian 4 value.toNat) value := by
  have length := Varints.littleEndian_length 4 value.toNat
  have read := (reads_readRaw (Varints.littleEndian 4 value.toNat)).map
    fun bytes => BitVec.ofNat 32 (Varints.ofLittleEndian bytes)
  rwa [length, Varints.ofLittleEndian_littleEndian value.isLt, BitVec.ofNat_toNat,
    BitVec.setWidth_eq] at read

theorem reads_word64 (value : BitVec 64) :
    Reads readRawLittleEndian64 (Varints.littleEndian 8 value.toNat) value := by
  have length := Varints.littleEndian_length 8 value.toNat
  have read := (reads_readRaw (Varints.littleEndian 8 value.toNat)).map
    fun bytes => BitVec.ofNat 64 (Varints.ofLittleEndian bytes)
  rwa [length, Varints.ofLittleEndian_littleEndian value.isLt, BitVec.ofNat_toNat,
    BitVec.setWidth_eq] at read

theorem reads_varint32 (value : BitVec 32) :
    Reads readRawVarint32 (Varints.encode value.toNat) value := by
  have read := reads_readRawVarint32 (Nat.lt_trans value.isLt (by decide))
  rwa [BitVec.ofNat_toNat, BitVec.setWidth_eq] at read

theorem reads_varint64 (value : BitVec 64) :
    Reads readRawVarint64 (Varints.encode value.toNat) value := by
  have read := reads_readRawVarint64 value.isLt
  rwa [BitVec.ofNat_toNat, BitVec.setWidth_eq] at read

theorem reads_int32 (value : BitVec 32) :
    Reads readRawVarint32 (Varints.encode (value.signExtend 64).toNat) value := by
  have read := reads_readRawVarint32 (value.signExtend 64).isLt
  have back : (value.signExtend 64).setWidth 32 = value := by
    ext i inside
    rw [BitVec.getElem_setWidth, BitVec.getLsbD_signExtend, if_pos inside,
      decide_eq_true (by omega), Bool.true_and, BitVec.getLsbD_eq_getElem]
  rwa [BitVec.ofNat_toNat, back] at read

theorem reads_bool (value : Bool) :
    Reads readRawVarint32 [GPBOutputBufferState.boolByte value] (BitVec.ofNat 32 value.toNat) := by
  have bytes : Varints.encode value.toNat = [GPBOutputBufferState.boolByte value] := by
    cases value <;> exact Varints.encode_small (by decide)
  rw [← bytes]
  exact reads_readRawVarint32 (Nat.lt_of_lt_of_le value.toNat_lt (by decide))

theorem reads_sint32 (value : BitVec 32) :
    Reads (return some (GPBDecodeZigZag32 (← readRawVarint32)))
      (Varints.encode (GPBEncodeZigZag32 value).toNat) (some value) := by
  have back : GPBDecodeZigZag32 (GPBEncodeZigZag32 value) = value := decodeZigZag_encodeZigZag value
  have read := (reads_varint32 (GPBEncodeZigZag32 value)).map fun n => some (GPBDecodeZigZag32 n)
  rwa [back] at read

theorem reads_sint64 (value : BitVec 64) :
    Reads (return some (GPBDecodeZigZag64 (← readRawVarint64)))
      (Varints.encode (GPBEncodeZigZag64 value).toNat) (some value) := by
  have back : GPBDecodeZigZag64 (GPBEncodeZigZag64 value) = value := decodeZigZag_encodeZigZag value
  have read := (reads_varint64 (GPBEncodeZigZag64 value)).map fun n => some (GPBDecodeZigZag64 n)
  rwa [back] at read

/-- What a type writes, it reads back. -/
theorem reads_readNoTag (type : PlainType) {value : type.Value} (encodable : type.Encodable value) :
    Reads (readNoTag type) (type.encoding value) (some (type.received value)) := by
  cases type with
  | bool =>
      have read := (reads_bool value).map fun n => some (decide (n ≠ 0))
      cases value <;> exact read
  | fixed32 => exact (reads_word32 value).map some
  | sfixed32 => exact (reads_word32 value).map some
  | float => exact (reads_word32 value).map some
  | fixed64 => exact (reads_word64 value).map some
  | sfixed64 => exact (reads_word64 value).map some
  | double => exact (reads_word64 value).map some
  | int32 => exact (reads_int32 value).map some
  | int64 => exact (reads_varint64 value).map some
  | sint32 => exact reads_sint32 value
  | sint64 => exact reads_sint64 value
  | uint32 => exact (reads_varint32 value).map some
  | uint64 => exact (reads_varint64 value).map some
  | bytes => exact reads_readRetainedBytes encodable
  | string =>
      obtain ⟨bytes, encoded, small⟩ := encodable
      rw [PlainType.encoding, encoded]
      exact (reads_readRetainedString encoded small).map some
  | enum => exact (reads_varint32 value).map some

theorem ordered_initWithData {data : NSData} (small : data.length < 2 ^ 62) :
    Ordered (initWithData data) := ⟨Nat.zero_le _, Nat.le_refl _, small⟩

theorem ahead_initWithData (data : NSData) : (initWithData data).ahead = data :=
  List.take_length

/-- A value fills a buffer of the computed size, and wherever these bytes stand they are read back
as that value, up to their end; a string has lost the byte order mark in front of it. -/
theorem readNoTag_writeNoTag (type : PlainType) {value : type.Value}
    (encodable : type.Encodable value) (front rest : NSData)
    (small : front.length + computeSizeNoTag type value + rest.length < 2 ^ 62) :
    ∃ t, GPBOutputBufferState.writeNoTag type value (GPBOutputBufferState.initWithData
        (dataWithLength (computeSizeNoTag type value))) = .done t ∧
      readNoTag type ((initWithData (front ++ (t.bytes ++ rest))).skip front.length) =
        .ok (some (type.received value)) ((initWithData (front ++ (t.bytes ++ rest))).skip
          (front.length + computeSizeNoTag type value)) := by
  have size := computeSizeNoTag_eq type value
  obtain ⟨t, written, bytes⟩ := (GPBOutputBufferState.emits_writeNoTag type value).exact size
  refine ⟨t, written, ?_⟩
  rw [bytes, size]
  have length : (front ++ (type.encoding value ++ rest)).length =
      front.length + (type.encoding value).length + rest.length := by
    simp only [List.length_append, Nat.add_assoc]
  have start : Ordered (initWithData (front ++ (type.encoding value ++ rest))) :=
    ordered_initWithData (by omega)
  have ordered := @Ordered.skip _ start front.length (by rw [ahead_initWithData, length]; omega)
  have ahead : ((initWithData (front ++ (type.encoding value ++ rest))).skip front.length).ahead =
      type.encoding value ++ rest := by
    rw [ahead_skip, ahead_initWithData, List.drop_left]
  rw [reads_readNoTag type encodable _ ordered rest ahead, skip_skip]

/-- A zigzag number between other bytes. -/
theorem readNoTag_writeNoTag_sint32 :
    ∃ t, GPBOutputBufferState.writeNoTag .sint32 (-150#32) (GPBOutputBufferState.initWithData
        (dataWithLength (computeSizeNoTag .sint32 (-150#32)))) = .done t ∧
      readNoTag .sint32 ((initWithData ([8] ++ (t.bytes ++ [0]))).skip [8].length) =
        .ok (some (-150#32)) ((initWithData ([8] ++ (t.bytes ++ [0]))).skip
          ([8].length + computeSizeNoTag .sint32 (-150#32))) :=
  readNoTag_writeNoTag .sint32 trivial [8] [0] (by decide)

end GPBCodedInputStreamState
end LeptosMusic
