import Mathlib.Data.List.Basic

/-!
# The code units and the bytes of a text

A text is a list of characters. `utf16` gives its code units and `utf8` its bytes; both are
read back, by `characters` and by `decodeUtf8`, and nothing else is read. Surrogates stand in
pairs only.
-/
namespace Unicode

def utf16Char (c : Char) : List UInt16 :=
  if c.toNat < 0x10000 then [UInt16.ofNat c.toNat]
  else [UInt16.ofNat (0xD800 + (c.toNat - 0x10000) / 0x400),
    UInt16.ofNat (0xDC00 + (c.toNat - 0x10000) % 0x400)]

def utf16 (text : List Char) : List UInt16 := text.flatMap utf16Char

/-- The character of a surrogate pair. -/
def paired (high low : UInt16) : Char :=
  Char.ofNat (0x10000 + (high.toNat - 0xD800) * 0x400 + (low.toNat - 0xDC00))

def isHigh (unit : UInt16) : Bool := 0xD800 ≤ unit.toNat && unit.toNat < 0xDC00
def isLow (unit : UInt16) : Bool := 0xDC00 ≤ unit.toNat && unit.toNat < 0xE000

def characters : List UInt16 → Option (List Char)
  | [] => some []
  | [unit] => if isHigh unit || isLow unit then none else some [Char.ofNat unit.toNat]
  | unit :: next :: rest =>
      if isHigh unit then
        if isLow next then (characters rest).map (paired unit next :: ·) else none
      else if isLow unit then none
      else (characters (next :: rest)).map (Char.ofNat unit.toNat :: ·)

theorem not_surrogate (c : Char) : c.toNat < 0xD800 ∨ 0xE000 ≤ c.toNat := by
  have valid := c.valid
  simp only [UInt32.isValidChar, Nat.isValidChar] at valid
  change c.val.toNat < 0xD800 ∨ 0xE000 ≤ c.val.toNat
  omega

theorem char_lt (c : Char) : c.toNat < 0x110000 := by
  have valid := c.valid
  simp only [UInt32.isValidChar, Nat.isValidChar] at valid
  change c.val.toNat < 0x110000
  omega

theorem toNat_ofNat {n : Nat} (valid : n.isValidChar) : (Char.ofNat n).toNat = n := by
  rw [Char.ofNat, dif_pos valid]
  rfl

theorem utf16Char_small {c : Char} (small : c.toNat < 0x10000) :
    utf16Char c = [UInt16.ofNat c.toNat] := if_pos small

theorem isSurrogate_small {c : Char} (small : c.toNat < 0x10000) :
    isHigh (UInt16.ofNat c.toNat) = false ∧ isLow (UInt16.ofNat c.toNat) = false := by
  have outside := not_surrogate c
  have value : (UInt16.ofNat c.toNat).toNat = c.toNat := by
    rw [UInt16.toNat_ofNat']
    omega
  simp only [isHigh, isLow, value, Bool.and_eq_false_iff, decide_eq_false_iff_not]
  omega

/-- The units of one character are read as that character. -/
theorem characters_utf16Char_append (c : Char) (rest : List UInt16) :
    characters (utf16Char c ++ rest) = (characters rest).map (c :: ·) := by
  by_cases small : c.toNat < 0x10000
  · obtain ⟨notHigh, notLow⟩ := isSurrogate_small small
    have value : (UInt16.ofNat c.toNat).toNat = c.toNat := by
      rw [UInt16.toNat_ofNat']
      omega
    rw [utf16Char_small small]
    cases rest with
    | nil => simp [characters, notHigh, notLow, value, Char.ofNat_toNat]
    | cons next rest => simp [characters, notHigh, notLow, value, Char.ofNat_toNat]
  · have bound := char_lt c
    have highValue : (UInt16.ofNat (0xD800 + (c.toNat - 0x10000) / 0x400)).toNat =
        0xD800 + (c.toNat - 0x10000) / 0x400 := by
      rw [UInt16.toNat_ofNat']
      omega
    have lowValue : (UInt16.ofNat (0xDC00 + (c.toNat - 0x10000) % 0x400)).toNat =
        0xDC00 + (c.toNat - 0x10000) % 0x400 := by
      rw [UInt16.toNat_ofNat']
      omega
    have high : isHigh (UInt16.ofNat (0xD800 + (c.toNat - 0x10000) / 0x400)) = true := by
      simp only [isHigh, highValue, Bool.and_eq_true, decide_eq_true_eq]
      omega
    have low : isLow (UInt16.ofNat (0xDC00 + (c.toNat - 0x10000) % 0x400)) = true := by
      simp only [isLow, lowValue, Bool.and_eq_true, decide_eq_true_eq]
      omega
    have pair : paired (UInt16.ofNat (0xD800 + (c.toNat - 0x10000) / 0x400))
        (UInt16.ofNat (0xDC00 + (c.toNat - 0x10000) % 0x400)) = c := by
      have parts : 0x10000 + (0xD800 + (c.toNat - 0x10000) / 0x400 - 0xD800) * 0x400 +
          (0xDC00 + (c.toNat - 0x10000) % 0x400 - 0xDC00) = c.toNat := by omega
      rw [paired, highValue, lowValue, parts, Char.ofNat_toNat]
    rw [utf16Char, if_neg small]
    simp only [List.cons_append, List.nil_append, characters, high, low, if_true, pair]

theorem characters_utf16 (text : List Char) : characters (utf16 text) = some text := by
  induction text with
  | nil => rfl
  | cons c text ih =>
      rw [utf16, List.flatMap_cons, characters_utf16Char_append]
      exact congrArg (Option.map (c :: ·)) ih

theorem utf16Char_ofNat {unit : UInt16} (notHigh : isHigh unit = false) (notLow : isLow unit = false) :
    utf16Char (Char.ofNat unit.toNat) = [unit] := by
  have bound := unit.toNat_lt
  simp only [isHigh, isLow, Bool.and_eq_false_iff, decide_eq_false_iff_not] at notHigh notLow
  have valid : unit.toNat.isValidChar := by
    rw [Nat.isValidChar]
    omega
  have value := toNat_ofNat valid
  rw [utf16Char_small (by omega), value, UInt16.ofNat_toNat]

theorem utf16Char_paired {high low : UInt16} (isHigh : isHigh high = true) (isLow : isLow low = true) :
    utf16Char (paired high low) = [high, low] := by
  simp only [Unicode.isHigh, Unicode.isLow, Bool.and_eq_true, decide_eq_true_eq] at isHigh isLow
  have valid : (0x10000 + (high.toNat - 0xD800) * 0x400 + (low.toNat - 0xDC00)).isValidChar := by
    rw [Nat.isValidChar]
    omega
  have value : (paired high low).toNat =
      0x10000 + (high.toNat - 0xD800) * 0x400 + (low.toNat - 0xDC00) := toNat_ofNat valid
  have first : 0xD800 + ((paired high low).toNat - 0x10000) / 0x400 = high.toNat := by omega
  have second : 0xDC00 + ((paired high low).toNat - 0x10000) % 0x400 = low.toNat := by omega
  rw [utf16Char, if_neg (by omega), first, second, UInt16.ofNat_toNat, UInt16.ofNat_toNat]

/-- Only the units of a text are read. -/
theorem utf16_of_characters {units : List UInt16} {text : List Char}
    (h : characters units = some text) : utf16 text = units := by
  induction units using characters.induct generalizing text with
  | case1 =>
      cases h
      rfl
  | case2 unit surrogate => simp [characters, surrogate] at h
  | case3 unit plain =>
      simp only [characters, plain] at h
      cases h
      rw [Bool.or_eq_true, not_or, Bool.not_eq_true, Bool.not_eq_true] at plain
      rw [utf16, List.flatMap_cons, utf16Char_ofNat plain.1 plain.2]
      rfl
  | case4 unit next rest high low ih =>
      simp only [characters, high, low, if_true] at h
      obtain ⟨tail, read, rfl⟩ := Option.map_eq_some_iff.mp h
      rw [utf16, List.flatMap_cons, utf16Char_paired high low]
      exact congrArg (fun units => unit :: next :: units) (ih read)
  | case5 unit next rest high notLow => simp [characters, high, notLow] at h
  | case6 unit next rest notHigh low => simp [characters, notHigh, low] at h
  | case7 unit next rest notHigh notLow ih =>
      simp only [characters, notHigh, notLow] at h
      obtain ⟨tail, read, rfl⟩ := Option.map_eq_some_iff.mp h
      rw [Bool.not_eq_true] at notHigh notLow
      rw [utf16, List.flatMap_cons, utf16Char_ofNat notHigh notLow]
      exact congrArg (unit :: ·) (ih read)

/-- A unit that is no surrogate parts a text from what follows it. -/
theorem characters_append_cons {unit : UInt16} (notHigh : isHigh unit = false)
    (notLow : isLow unit = false) (front back : List UInt16) :
    characters (front ++ unit :: back) = (characters front).bind fun before =>
      (characters back).map fun after => before ++ Char.ofNat unit.toNat :: after := by
  induction front using characters.induct with
  | case1 =>
      cases back with
      | nil => simp [characters, notHigh, notLow]
      | cons next back => simp [characters, notHigh, notLow]
  | case2 last surrogate =>
      rw [characters, surrogate, if_pos rfl]
      rcases Bool.or_eq_true _ _ |>.mp surrogate with high | low
      · simp [characters, high, notLow]
      · cases high : isHigh last <;> simp [characters, high, low, notLow]
  | case3 last plain =>
      rw [Bool.or_eq_true, not_or, Bool.not_eq_true, Bool.not_eq_true] at plain
      cases back with
      | nil => simp [characters, plain.1, plain.2, notHigh, notLow]
      | cons next back =>
          simp [characters, plain.1, plain.2, notHigh, notLow, Function.comp_def]
  | case4 first next rest high low ih =>
      simp only [List.cons_append, characters, high, low, if_true, ih]
      cases characters rest <;> simp [Function.comp_def]
  | case5 first next rest high notLow' =>
      simp only [List.cons_append, characters, high, notLow']
      rfl
  | case6 first next rest notHigh' low =>
      simp only [List.cons_append, characters, notHigh', low]
      rfl
  | case7 first next rest notHigh' notLow' ih =>
      simp only [List.cons_append] at ih
      simp only [List.cons_append, characters, notHigh', notLow', ih]
      cases characters (next :: rest) <;> simp [Function.comp_def]

def utf8 (text : List Char) : List UInt8 := text.flatMap String.utf8EncodeChar

def decodeUtf8 (bytes : List UInt8) : Option (List Char) :=
  bytes.toByteArray.utf8Decode?.map Array.toList

theorem decodeUtf8_utf8 (text : List Char) : decodeUtf8 (utf8 text) = some text := by
  have encoded : (utf8 text).toByteArray = text.utf8Encode := rfl
  rw [decodeUtf8, encoded, List.utf8Decode?_utf8Encode, Option.map_some]

theorem utf8_of_decodeUtf8 {bytes : List UInt8} {text : List Char}
    (h : decodeUtf8 bytes = some text) : utf8 text = bytes := by
  obtain ⟨chars, decoded, rfl⟩ := Option.map_eq_some_iff.mp h
  have encoded : chars.toList.utf8Encode = bytes.toByteArray := by
    have back := ByteArray.utf8Encode_get_utf8Decode? (b := bytes.toByteArray)
      (h := Option.isSome_of_eq_some decoded)
    simpa only [decoded, Option.get_some] using back
  have same : (utf8 chars.toList).toByteArray = bytes.toByteArray := encoded
  have data := congrArg ByteArray.data same
  simpa using data

theorem utf8_cons (c : Char) (text : List Char) : utf8 (c :: text) = utf8 [c] ++ utf8 text := by
  rw [← List.singleton_append, utf8, List.flatMap_append]
  rfl

/-- Only the character U+0000 has a zero byte. -/
theorem zero_mem_utf8EncodeChar {c : Char} (h : 0 ∈ String.utf8EncodeChar c) : c.toNat = 0 := by
  have bound := char_lt c
  have value : c.val.toNat = c.toNat := rfl
  have zero (n : Nat) (zero : 0 = UInt8.ofNat n) : n % 256 = 0 := by
    have value := congrArg UInt8.toNat zero
    rw [UInt8.toNat_ofNat'] at value
    exact value.symm
  simp only [String.utf8EncodeChar, value] at h
  split_ifs at h <;> simp only [List.mem_cons, List.not_mem_nil, or_false] at h
  · have := zero _ h
    omega
  · rcases h with h | h <;> have := zero _ h <;> omega
  · rcases h with h | h | h <;> have := zero _ h <;> omega
  · rcases h with h | h | h | h <;> have := zero _ h <;> omega

theorem zero_mem_utf16Char {c : Char} (h : c.toNat = 0) : 0 ∈ utf16Char c := by
  rw [utf16Char_small (by omega), h]
  exact List.mem_singleton.mpr rfl

/-- A text whose units are all nonzero has no zero byte. -/
theorem zero_notMem_utf8 {text : List Char} (h : 0 ∉ utf16 text) : 0 ∉ utf8 text := by
  intro member
  obtain ⟨c, inText, zero⟩ := List.mem_flatMap.mp member
  exact h (List.mem_flatMap.mpr ⟨c, inText, zero_mem_utf16Char (zero_mem_utf8EncodeChar zero)⟩)

/-- The byte order mark. -/
def mark : Char := Char.ofNat 0xFEFF

/-- A text without the mark in front of it. -/
def dropMark : List Char → List Char
  | [] => []
  | c :: text => if c = mark then text else c :: text

/-- No mark stands in front of these units. -/
def Unmarked (units : List UInt16) : Prop := units.head? ≠ some 0xFEFF
  deriving Decidable

theorem head_utf16Char (c : Char) (rest : List UInt16) :
    (utf16Char c ++ rest).head? = some 0xFEFF ↔ c = mark := by
  have same : mark.toNat = 0xFEFF := rfl
  have unit : (0xFEFF : UInt16).toNat = 0xFEFF := rfl
  constructor
  · intro head
    rw [← Char.toNat_inj, same]
    rw [utf16Char] at head
    split_ifs at head with small
    · have value := congrArg UInt16.toNat (Option.some.inj head)
      rw [UInt16.toNat_ofNat', unit] at value
      omega
    · have bound := char_lt c
      have value := congrArg UInt16.toNat (Option.some.inj head)
      rw [UInt16.toNat_ofNat', unit] at value
      omega
  · rintro rfl
    rfl

/-- Units without the mark in front of them. -/
def withoutMark (units : List UInt16) : List UInt16 :=
  if units.head? = some 0xFEFF then units.tail else units

theorem withoutMark_eq {units : List UInt16} (unmarked : Unmarked units) :
    withoutMark units = units := if_neg unmarked

theorem unmarked_of_withoutMark {units : List UInt16} (same : withoutMark units = units) :
    Unmarked units := by
  intro marked
  rw [withoutMark, if_pos marked] at same
  cases units with
  | nil => cases marked
  | cons unit units => exact List.cons_ne_self unit units same.symm

theorem utf16_dropMark (text : List Char) : utf16 (dropMark text) = withoutMark (utf16 text) := by
  cases text with
  | nil => rfl
  | cons c text =>
      have units : utf16 (c :: text) = utf16Char c ++ utf16 text := List.flatMap_cons
      rw [withoutMark, units, dropMark]
      simp only [head_utf16Char]
      split_ifs with isMark
      · subst isMark
        rfl
      · rfl

/-- A mark has been dropped, or nothing. -/
theorem dropMark_cases (text : List Char) : dropMark text = text ∨ text = mark :: dropMark text := by
  cases text with
  | nil => exact .inl rfl
  | cons c text =>
      rw [dropMark]
      split_ifs with isMark
      · exact .inr (congrArg (· :: text) isMark)
      · exact .inl rfl

theorem length_utf8_dropMark (text : List Char) : (utf8 (dropMark text)).length ≤ (utf8 text).length := by
  cases text with
  | nil => exact Nat.le_refl _
  | cons c text =>
      rw [dropMark]
      split_ifs
      · rw [utf8, utf8, List.flatMap_cons, List.length_append]
        exact Nat.le_add_left _ _
      · exact Nat.le_refl _

end Unicode
