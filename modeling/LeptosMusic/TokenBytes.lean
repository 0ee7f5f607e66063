import LeptosMusic.AccessTokens
import LeptosMusic.Library.Unicode

/-!
# The byte format of a token

The token is stored without a terminator, and read back as a C string from a local buffer.
-/
namespace LeptosMusic
namespace LMAccessTokenModel

/-- What Foundation documents of the two conversions. A string with a surrogate out of its pair
has no UTF-8 form. It does not say whether a byte order mark in front of a text is consumed. -/
structure UnicodeLaws (T : TokenPlatform) (consumesMark : Bool) : Prop where
  UTF8String : ∀ string text, Unicode.characters string = some text →
    T.UTF8String string = Unicode.utf8 text
  stringWithUTF8String : ∀ bytes,
    T.stringWithUTF8String bytes = (Unicode.decodeUtf8 bytes).map fun text =>
      Unicode.utf16 (if consumesMark then Unicode.dropMark text else text)

/-- The C string at the start of a buffer that stands before other memory. -/
def cString (buffer memory : NSData) : NSData := (buffer ++ memory).takeWhile (· ≠ 0)

/-- The byte behind the buffer ends a string in it. -/
def Terminated (memory : NSData) : Prop := ∀ byte ∈ memory.head?, byte = 0
  deriving Decidable

/-- The memory behind the bytes of a token leaves it as it is: it adds nothing, and no mark is
consumed; or one that is consumed from the front of it comes back from behind. -/
def Kept (consumesMark : Bool) (token : NSString) (bytes memory : NSData) : Prop :=
  Terminated memory ∧ (consumesMark = true → Unicode.Unmarked token) ∨
    consumesMark = true ∧ cString bytes memory = Unicode.utf8 [Unicode.mark] ++ bytes

theorem kept_false (token : NSString) (bytes memory : NSData) :
    Kept false token bytes memory ↔ Terminated memory := by
  simp [Kept]

theorem takeWhile_eq_nil_iff (memory : NSData) :
    memory.takeWhile (· ≠ 0) = [] ↔ Terminated memory := by
  cases memory with
  | nil => simp [Terminated]
  | cons byte rest => by_cases zero : byte = 0 <;> simp [Terminated, zero]

theorem cString_of_notMem {buffer : NSData} (clean : 0 ∉ buffer) (memory : NSData) :
    cString buffer memory = buffer ++ memory.takeWhile (· ≠ 0) := by
  apply List.takeWhile_append_of_pos
  intro byte member
  exact decide_eq_true fun zero => clean (zero ▸ member)

theorem cString_of_mem {buffer : NSData} (ended : 0 ∈ buffer) (memory : NSData) :
    cString buffer memory = buffer.takeWhile (· ≠ 0) := by
  induction buffer with
  | nil => cases ended
  | cons byte buffer ih =>
      by_cases zero : byte = 0
      · simp [cString, zero]
      · have later : 0 ∈ buffer := (List.mem_cons.mp ended).resolve_left (Ne.symm zero)
        have rest := ih later
        rw [cString] at rest ⊢
        rw [List.cons_append, List.takeWhile_cons_of_pos (by simpa using zero), rest,
          List.takeWhile_cons_of_pos (by simpa using zero)]

/-- A C string stays in its buffer when it ends there, or right behind it. -/
theorem cString_prefix_iff (buffer memory : NSData) :
    cString buffer memory <+: buffer ↔ 0 ∈ buffer ∨ Terminated memory := by
  by_cases ended : 0 ∈ buffer
  · rw [cString_of_mem ended]
    exact iff_of_true (List.takeWhile_prefix _) (.inl ended)
  · rw [cString_of_notMem ended, ← takeWhile_eq_nil_iff, or_iff_right ended]
    constructor
    · intro inside
      have length := inside.length_le
      rw [List.length_append] at length
      exact List.eq_nil_of_length_eq_zero (by omega)
    · intro empty
      rw [empty, List.append_nil]

variable (T : TokenPlatform)

/-- The bytes that the token of a data object is made of. -/
def storedText (data : NSData) : NSData := cString (data.drop 8) (T.beyond (data.drop 8))

theorem initWithDataStore_eq {data : NSData} (long : 8 ≤ data.length) :
    initWithDataStore T (some data) = some {
      token := T.stringWithUTF8String (storedText T data)
      expiry := some (T.dateOfBytes (data.take 8)) } := by
  have enough : ¬ data.length < 8 := by omega
  rw [initWithDataStore, Option.getD_some, if_neg enough]
  rfl

/-- The bytes of a model with a token. -/
def tokenBytes (token : NSString) (expiry : Int) : NSData :=
  (T.dateBytes expiry).val ++ (T.UTF8String token).takeWhile (· ≠ 0)

theorem dataStore_eq (token : NSString) (expiry : Int) :
    (⟨some token, some expiry⟩ : LMAccessTokenModel).dataStore T = .ok (tokenBytes T token expiry) :=
  rfl

theorem tokenBytes_parts (token : NSString) (expiry : Int) :
    (tokenBytes T token expiry).take 8 = (T.dateBytes expiry).val ∧
      (tokenBytes T token expiry).drop 8 = (T.UTF8String token).takeWhile (· ≠ 0) ∧
      8 ≤ (tokenBytes T token expiry).length := by
  have size := (T.dateBytes expiry).property
  refine ⟨List.take_left' size, List.drop_left' size, ?_⟩
  rw [tokenBytes, List.length_append, size]
  omega

variable {T} {consumesMark : Bool}

/-- A string is read back from its bytes exactly when it has a UTF-8 form, and the memory behind
the buffer leaves it as it is. -/
theorem storedText_token_iff (laws : UnicodeLaws T consumesMark) {token : NSString}
    (clean : 0 ∉ token) (memory : NSData) :
    T.stringWithUTF8String (cString ((T.UTF8String token).takeWhile (· ≠ 0)) memory) = some token ↔
      (Unicode.characters token).isSome = true ∧
        Kept consumesMark token ((T.UTF8String token).takeWhile (· ≠ 0)) memory := by
  have written {text : List Char} (read : Unicode.characters token = some text) :
      0 ∉ Unicode.utf8 text ∧ (T.UTF8String token).takeWhile (· ≠ 0) = Unicode.utf8 text := by
    have units := Unicode.utf16_of_characters read
    have nonzero : 0 ∉ Unicode.utf8 text := Unicode.zero_notMem_utf8 (units ▸ clean)
    refine ⟨nonzero, ?_⟩
    have whole := cString_of_notMem nonzero []
    rw [laws.UTF8String token text read]
    simpa [cString] using whole
  rw [laws.stringWithUTF8String]
  constructor
  · intro same
    obtain ⟨text, decoded, units⟩ := Option.map_eq_some_iff.mp same
    have encoded := Unicode.utf8_of_decodeUtf8 decoded
    have read := units ▸ Unicode.characters_utf16 _
    obtain ⟨nonzero, bytes⟩ := written read
    rw [bytes] at encoded ⊢
    refine ⟨by rw [read]; rfl, ?_⟩
    -- without a mark that is dropped, the text has all bytes of the C string
    have nothing (kept : (if consumesMark = true then Unicode.dropMark text else text) = text) :
        Terminated memory := by
      rw [kept] at encoded nonzero
      rw [cString_of_notMem nonzero, List.self_eq_append_right] at encoded
      exact (takeWhile_eq_nil_iff memory).mp encoded
    cases consumesMark with
    | false => exact .inl ⟨nothing rfl, fun absurd => by cases absurd⟩
    | true =>
        rw [if_pos rfl] at nothing units
        rcases Unicode.dropMark_cases text with kept | dropped
        · refine .inl ⟨nothing kept, fun _ => ?_⟩
          apply Unicode.unmarked_of_withoutMark
          rw [← units, ← Unicode.utf16_dropMark, kept, kept]
        · refine .inr ⟨rfl, ?_⟩
          rw [if_pos rfl] at encoded ⊢
          rw [← encoded, ← Unicode.utf8_cons, ← dropped]
  · rintro ⟨readable, kept⟩
    obtain ⟨text, read⟩ := Option.isSome_iff_exists.mp readable
    obtain ⟨nonzero, bytes⟩ := written read
    have units := Unicode.utf16_of_characters read
    rw [bytes] at kept ⊢
    rcases kept with ⟨terminated, unmarked⟩ | ⟨rfl, returned⟩
    · rw [cString_of_notMem nonzero, (takeWhile_eq_nil_iff memory).mpr terminated, List.append_nil,
        Unicode.decodeUtf8_utf8, Option.map_some]
      cases consumesMark with
      | false => exact congrArg some units
      | true =>
          rw [if_pos rfl, Unicode.utf16_dropMark, units, Unicode.withoutMark_eq (unmarked rfl)]
    · rw [returned, ← Unicode.utf8_cons, Unicode.decodeUtf8_utf8, Option.map_some]
      exact congrArg some units

theorem roundTrip_iff (laws : UnicodeLaws T consumesMark) {token : NSString} (clean : 0 ∉ token) {expiry : Int}
    (lossless : T.dateOfBytes (T.dateBytes expiry).val = expiry) :
    initWithDataStore T (some (tokenBytes T token expiry)) = some ⟨some token, some expiry⟩ ↔
      (Unicode.characters token).isSome = true ∧
        Kept consumesMark token ((tokenBytes T token expiry).drop 8)
          (T.beyond ((tokenBytes T token expiry).drop 8)) := by
  obtain ⟨date, text, long⟩ := tokenBytes_parts T token expiry
  rw [initWithDataStore_eq T long, date, lossless, storedText, text,
    ← storedText_token_iff laws clean]
  simp only [Option.some.injEq, LMAccessTokenModel.mk.injEq, and_true]

/-- A model comes back from its bytes exactly when its token has a UTF-8 form and the memory behind
the buffer leaves it as it is; where no byte order mark is consumed, that is when the byte behind the
buffer is a zero. A data object's token is made of its own bytes exactly when it has a zero
among those behind the date, or the byte behind the buffer is one. -/
theorem dataStore_contract (laws : UnicodeLaws T consumesMark) :
    (∀ token expiry, 0 ∉ token → T.dateOfBytes (T.dateBytes expiry).val = expiry →
      ∃ data, (⟨some token, some expiry⟩ : LMAccessTokenModel).dataStore T = .ok data ∧
        (initWithDataStore T (some data) = some ⟨some token, some expiry⟩ ↔
          (Unicode.characters token).isSome = true ∧
            Kept consumesMark token (data.drop 8) (T.beyond (data.drop 8)))) ∧
    ∀ data : NSData, 8 ≤ data.length →
      initWithDataStore T (some data) = some {
        token := T.stringWithUTF8String (storedText T data)
        expiry := some (T.dateOfBytes (data.take 8)) } ∧
      (storedText T data <+: data.drop 8 ↔
        0 ∈ data.drop 8 ∨ Terminated (T.beyond (data.drop 8))) := by
  constructor
  · intro token expiry clean lossless
    exact ⟨_, dataStore_eq T token expiry, roundTrip_iff laws clean lossless⟩
  · intro data long
    exact ⟨initWithDataStore_eq T long, cString_prefix_iff _ _⟩

/-- Foundation's conversions, with the given memory behind every buffer. -/
def unicodePlatform (consumesMark : Bool) (memory : NSData) : TokenPlatform where
  dateBytes := asciiPlatform.dateBytes
  dateOfBytes := asciiPlatform.dateOfBytes
  UTF8String string := ((Unicode.characters string).map Unicode.utf8).getD []
  stringWithUTF8String bytes := (Unicode.decodeUtf8 bytes).map fun text =>
    Unicode.utf16 (if consumesMark then Unicode.dropMark text else text)
  beyond _ := memory
  doubleValue _ := 0

theorem unicodePlatform_laws (consumesMark : Bool) (memory : NSData) :
    UnicodeLaws (unicodePlatform consumesMark memory) consumesMark := by
  constructor
  · intro string text read
    simp only [unicodePlatform, read, Option.map_some, Option.getD_some]
  · intro bytes
    rfl

theorem zeroed_roundTrip :
    ∃ data, (⟨some (literal "ya29"), some 1543276800⟩ : LMAccessTokenModel).dataStore
        (unicodePlatform false [0]) = .ok data ∧
      initWithDataStore (unicodePlatform false [0]) (some data) =
        some ⟨some (literal "ya29"), some 1543276800⟩ := by
  obtain ⟨data, stored, back⟩ := (dataStore_contract (unicodePlatform_laws false [0])).1
    (literal "ya29") 1543276800 (by decide) (by decide)
  refine ⟨data, stored, back.mpr ⟨by decide, (kept_false _ _ _).mpr fun byte member => ?_⟩⟩
  exact (Option.some.inj member).symm

def longerToken : List Char := ['y', 'a', '2', '9', '!']

/-- With other bytes on the stack, the token comes back with one of them behind it. -/
theorem token_grows :
    ∃ data, (⟨some (literal "ya29"), some 1543276800⟩ : LMAccessTokenModel).dataStore
        (unicodePlatform false [0x21, 0]) = .ok data ∧
      initWithDataStore (unicodePlatform false [0x21, 0]) (some data) =
        some ⟨some (literal "ya29!"), some 1543276800⟩ ∧
      ¬ storedText (unicodePlatform false [0x21, 0]) data <+: data.drop 8 := by
  refine ⟨_, rfl, ?_, by decide⟩
  rw [initWithDataStore_eq _ (by decide)]
  have bytes : storedText (unicodePlatform false [0x21, 0]) (tokenBytes (unicodePlatform false [0x21, 0])
      (literal "ya29") 1543276800) = Unicode.utf8 longerToken := by decide
  have token : (unicodePlatform false [0x21, 0]).stringWithUTF8String (Unicode.utf8 longerToken) =
      some (Unicode.utf16 longerToken) := by
    rw [(unicodePlatform_laws _ _).stringWithUTF8String, Unicode.decodeUtf8_utf8]
    rfl
  have read := congrArg (unicodePlatform false [0x21, 0]).stringWithUTF8String bytes
  rw [token] at read
  exact congrArg some (congrArg₂ LMAccessTokenModel.mk read (by decide))

end LMAccessTokenModel
end LeptosMusic
