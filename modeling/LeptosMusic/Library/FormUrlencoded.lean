import Mathlib.Data.List.TakeWhile
import LeptosMusic.Library.Weights

/-!
# Form-urlencoded text

A text is cut at the ampersands, each piece that is not empty at its first equals sign, and both
parts are decoded: a plus stands for a space, a percent sign and two hexadecimal digits for a
byte. `joined` puts names and values together without encoding them. It is read back exactly for
pairs that hold nothing with a meaning in such a text.
-/
namespace FormUrlencoded
open Weights

abbrev Bytes := List UInt8

def ampersand : UInt8 := 38
def equals : UInt8 := 61
def plus : UInt8 := 43
def percent : UInt8 := 37
def space : UInt8 := 32

def spaced (byte : UInt8) : UInt8 := if byte = plus then space else byte

def hexValue (digit : UInt8) : Option Nat :=
  if 48 ≤ digit.toNat ∧ digit.toNat ≤ 57 then some (digit.toNat - 48)
  else if 65 ≤ digit.toNat ∧ digit.toNat ≤ 70 then some (digit.toNat - 55)
  else if 97 ≤ digit.toNat ∧ digit.toNat ≤ 102 then some (digit.toNat - 87)
  else none

/-- The byte that three bytes of a text stand for. -/
def escape (sign high low : UInt8) : Option UInt8 :=
  if sign = percent then
    (hexValue high).bind fun h => (hexValue low).map fun l => UInt8.ofNat (16 * h + l)
  else none

def unescape : Bytes → Bytes
  | sign :: high :: low :: rest =>
      match escape sign high low with
      | some byte => byte :: unescape rest
      | none => spaced sign :: unescape (high :: low :: rest)
  | bytes => bytes.map spaced

/-- How many bytes of a text are escaped. -/
def escapes : Bytes → Nat
  | sign :: high :: low :: rest =>
      match escape sign high low with
      | some _ => escapes rest + 1
      | none => escapes (high :: low :: rest)
  | _ => 0

/-- A piece, cut at its first equals sign. -/
def cut (piece : Bytes) : Bytes × Bytes :=
  (piece.takeWhile (· != equals), (piece.dropWhile (· != equals)).drop 1)

def pairs (text : Bytes) : List (Bytes × Bytes) :=
  ((text.splitOn ampersand).filter fun piece => !piece.isEmpty).map cut

/-- The names and values of a text whose parts are decoded by `f`. -/
def parseWith (f : Bytes → Bytes) (text : Bytes) : List (Bytes × Bytes) :=
  (pairs text).map fun pair => (f pair.1, f pair.2)

def parse : Bytes → List (Bytes × Bytes) := parseWith unescape

def piece (pair : Bytes × Bytes) : Bytes := pair.1 ++ equals :: pair.2

def joined (entries : List (Bytes × Bytes)) : Bytes := [ampersand].intercalate (entries.map piece)

theorem pairs_append (front back : Bytes) :
    pairs (front ++ ampersand :: back) = pairs front ++ pairs back := by
  rw [pairs, List.splitOn_append_cons_self, List.filter_append, List.map_append]
  rfl

theorem pairs_joined (entries : List (Bytes × Bytes)) :
    pairs (joined entries) = entries.flatMap fun pair => pairs (piece pair) := by
  induction entries with
  | nil => rfl
  | cons pair entries ih =>
      cases entries with
      | nil => simp [joined]
      | cons next entries =>
          have parts : joined (pair :: next :: entries) =
              piece pair ++ ampersand :: joined (next :: entries) := by
            simp [joined, List.intercalate_cons_cons]
          rw [parts, pairs_append, ih]
          rfl

theorem parseWith_joined (f : Bytes → Bytes) (entries : List (Bytes × Bytes)) :
    parseWith f (joined entries) = entries.flatMap fun pair => parseWith f (piece pair) := by
  rw [parseWith, pairs_joined, List.map_flatMap]
  rfl

theorem pairs_single {text : Bytes} (whole : ampersand ∉ text) (nonempty : text ≠ []) :
    pairs text = [cut text] := by
  rw [pairs, List.splitOn_eq_singleton whole]
  simp [nonempty]

theorem cut_piece {name : Bytes} (clean : equals ∉ name) (value : Bytes) :
    cut (name ++ equals :: value) = (name, value) := by
  have before : ∀ byte ∈ name, (byte != equals) = true := by
    intro byte member
    exact bne_iff_ne.mpr fun same => clean (same ▸ member)
  rw [cut, List.takeWhile_append_of_pos before, List.dropWhile_append_of_pos before]
  simp

theorem equals_notMem_cut (text : Bytes) : equals ∉ (cut text).1 := by
  intro member
  have kept := List.mem_takeWhile_imp member
  simp at kept

/-- A piece is put together again from its parts. -/
theorem piece_cut {text : Bytes} (separated : equals ∈ text) : piece (cut text) = text := by
  obtain ⟨name, value, rfl, clean⟩ := List.eq_append_cons_of_mem separated
  rw [cut_piece clean]
  rfl

theorem cut_whole {text : Bytes} (whole : equals ∉ text) : cut text = (text, []) := by
  have all : ∀ byte ∈ text, (byte != equals) = true := by
    intro byte member
    exact bne_iff_ne.mpr fun same => whole (same ▸ member)
  rw [cut, List.takeWhile_eq_self_iff.mpr all, List.dropWhile_eq_nil_iff.mpr all]
  rfl

/-- A decoder of parts that shortens a text by `cost`. Where it does not, it reads pluses only. -/
structure Decoder (f : Bytes → Bytes) (cost : Bytes → Nat) : Prop where
  length : ∀ text, (f text).length + cost text = text.length
  apart : ∀ front back separator, separator = ampersand ∨ separator = equals →
    cost (front ++ separator :: back) = cost front + cost back
  free : ∀ text, cost text = 0 → f text = text.map spaced

/-- A pair that is read back as it is. -/
structure Plain (cost : Bytes → Nat) (pair : Bytes × Bytes) : Prop where
  name_ampersand : ampersand ∉ pair.1
  value_ampersand : ampersand ∉ pair.2
  name_equals : equals ∉ pair.1
  name_plus : plus ∉ pair.1
  value_plus : plus ∉ pair.2
  name_free : cost pair.1 = 0
  value_free : cost pair.2 = 0

def size (pair : Bytes × Bytes) : Nat := pair.1.length + pair.2.length

theorem map_spaced {text : Bytes} (clean : plus ∉ text) : text.map spaced = text := by
  have kept : ∀ byte ∈ text, spaced byte = byte := by
    intro byte member
    rw [spaced, if_neg]
    rintro rfl
    exact clean member
  calc text.map spaced = text.map id := List.map_congr_left kept
    _ = text := List.map_id text

theorem plus_notMem_map_spaced (text : Bytes) : plus ∉ text.map spaced := by
  intro member
  obtain ⟨byte, _, same⟩ := List.mem_map.mp member
  unfold spaced at same
  split_ifs at same with here
  · exact absurd same (by decide)
  · exact here same

namespace Decoder

variable {f : Bytes → Bytes} {cost : Bytes → Nat} (decoder : Decoder f cost)

include decoder

theorem nil : f [] = [] ∧ cost [] = 0 := by
  have length := decoder.length []
  rw [List.length_nil] at length
  exact ⟨List.eq_nil_of_length_eq_zero (by omega), by omega⟩

theorem parse_plain {pair : Bytes × Bytes} (plain : Plain cost pair) :
    parseWith f (piece pair) = [pair] := by
  have whole : ampersand ∉ piece pair := by
    intro member
    rcases List.mem_append.mp member with name | value
    · exact plain.name_ampersand name
    · rcases List.mem_cons.mp value with same | value
      · exact absurd same (by decide)
      · exact plain.value_ampersand value
  have nonempty : piece pair ≠ [] := List.append_ne_nil_of_right_ne_nil _ (List.cons_ne_nil _ _)
  rw [parseWith, pairs_single whole nonempty, piece, cut_piece plain.name_equals]
  rw [List.map_singleton, decoder.free _ plain.name_free, decoder.free _ plain.value_free,
    map_spaced plain.name_plus, map_spaced plain.value_plus]

/-- One piece gives no more than its bytes, the equals sign and the escapes being lost. -/
theorem size_single (text : Bytes) :
    size (f (cut text).1, f (cut text).2) + cost text + min 1 (text.count equals) = text.length := by
  by_cases separated : equals ∈ text
  · have counted := List.count_pos_iff.mpr separated
    have name := decoder.length (cut text).1
    have value := decoder.length (cut text).2
    have apart := decoder.apart (cut text).1 (cut text).2 equals (.inr rfl)
    have parts := piece_cut separated
    have length := congrArg List.length parts
    rw [piece] at parts length
    rw [parts] at apart
    rw [List.length_append, List.length_cons] at length
    dsimp only [size]
    omega
  · have name := decoder.length text
    rw [cut_whole separated, size, decoder.nil.1, List.count_eq_zero.mpr separated]
    simp only [List.length_nil]
    omega

/-- Nothing is gained by cutting a text, and each ampersand is lost. -/
theorem size_parse (text : Bytes) :
    weigh size (parseWith f text) + cost text + text.count ampersand + min 1 (text.count equals) ≤
      text.length := by
  by_cases several : ampersand ∈ text
  · obtain ⟨front, back, rfl, _⟩ := List.eq_append_cons_of_mem several
    have first := size_parse front
    have rest := size_parse back
    have apart := decoder.apart front back ampersand (.inl rfl)
    have parsed : parseWith f (front ++ ampersand :: back) = parseWith f front ++ parseWith f back := by
      rw [parseWith, pairs_append, List.map_append]
      rfl
    have other : (ampersand == equals) = false := by decide
    rw [parsed, weigh_append, apart, List.count_append, List.count_append, List.count_cons_self,
      List.count_cons, other, List.length_append, List.length_cons]
    simp only [Bool.false_eq_true, if_false, Nat.add_zero]
    omega
  · rw [List.count_eq_zero.mpr several]
    by_cases nonempty : text = []
    · subst nonempty
      rw [decoder.nil.2]
      exact Nat.le_refl 0
    · have single := decoder.size_single text
      rw [parseWith, pairs_single several nonempty, List.map_singleton, weigh_cons, weigh_nil]
      omega
termination_by text.length

/-- The pieces of one pair give no more than the pair, and less if it holds an ampersand or an
escape. -/
theorem size_piece (pair : Bytes × Bytes) :
    weigh size (parseWith f (piece pair)) +
        (cost pair.1 + cost pair.2 + pair.1.count ampersand + pair.2.count ampersand) ≤
      size pair := by
  have all := decoder.size_parse (piece pair)
  have apart := decoder.apart pair.1 pair.2 equals (.inr rfl)
  have other : (equals == ampersand) = false := by decide
  rw [piece, apart, List.count_append, List.count_append, List.count_cons_self, List.count_cons, other,
    List.length_append, List.length_cons] at all
  simp only [Bool.false_eq_true, if_false, Nat.add_zero] at all
  dsimp only [size, piece] at all ⊢
  omega

/-- Pairs that are all read back hold no ampersand and no escape. -/
theorem unescaped {entries : List (Bytes × Bytes)} (different : entries.Nodup)
    (back : entries ⊆ parseWith f (joined entries)) :
    ∀ pair ∈ entries, cost pair.1 = 0 ∧ cost pair.2 = 0 ∧ ampersand ∉ pair.1 ∧
      ampersand ∉ pair.2 := by
  have total := weigh_le_of_subset size different back
  rw [parseWith_joined, weigh_flatMap] at total
  have same := weigh_same (fun pair _ => (Nat.le_add_right _ _).trans (decoder.size_piece pair)) total
  intro pair member
  have here := decoder.size_piece pair
  rw [← same pair member] at here
  have name : pair.1.count ampersand = 0 := by omega
  have value : pair.2.count ampersand = 0 := by omega
  exact ⟨by omega, by omega, List.count_eq_zero.mp name, List.count_eq_zero.mp value⟩

/-- What is read from a pair without ampersand and escapes has been cleared of the other signs. -/
theorem parse_cleared {pair found : Bytes × Bytes} (name : ampersand ∉ pair.1)
    (value : ampersand ∉ pair.2) (free : cost pair.1 = 0 ∧ cost pair.2 = 0)
    (member : found ∈ parseWith f (piece pair)) :
    equals ∉ found.1 ∧ plus ∉ found.1 ∧ plus ∉ found.2 := by
  have whole : ampersand ∉ piece pair := by
    simp [piece, name, value]
    decide
  have separated : equals ∈ piece pair := by simp [piece]
  have nonempty : piece pair ≠ [] := List.ne_nil_of_mem separated
  rw [parseWith, pairs_single whole nonempty, List.map_singleton, List.mem_singleton] at member
  have parts := piece_cut separated
  have apart := decoder.apart (cut (piece pair)).1 (cut (piece pair)).2 equals (.inr rfl)
  have total := decoder.apart pair.1 pair.2 equals (.inr rfl)
  change cost (piece (cut (piece pair))) = _ at apart
  change cost (piece pair) = _ at total
  rw [parts, total] at apart
  rw [member, decoder.free _ (by omega), decoder.free _ (by omega)]
  refine ⟨?_, plus_notMem_map_spaced _, plus_notMem_map_spaced _⟩
  intro member
  obtain ⟨byte, inName, same⟩ := List.mem_map.mp member
  unfold spaced at same
  split_ifs at same
  · exact absurd same (by decide)
  · exact equals_notMem_cut _ (same ▸ inName)

/-- Different pairs are all read back exactly when none of them holds a sign with a meaning, and
then nothing else is read. -/
theorem parse_joined_iff {entries : List (Bytes × Bytes)} (different : entries.Nodup) :
    (parseWith f (joined entries) = entries ↔ ∀ pair ∈ entries, Plain cost pair) ∧
      (entries ⊆ parseWith f (joined entries) ↔ ∀ pair ∈ entries, Plain cost pair) := by
  have read (plain : ∀ pair ∈ entries, Plain cost pair) : parseWith f (joined entries) = entries := by
    rw [parseWith_joined, List.flatMap_congr fun pair member => decoder.parse_plain (plain pair member)]
    exact List.flatMap_singleton' entries
  have plain (back : entries ⊆ parseWith f (joined entries)) : ∀ pair ∈ entries, Plain cost pair := by
    intro pair member
    have clean := decoder.unescaped different back
    obtain ⟨nameFree, valueFree, name, value⟩ := clean pair member
    have found := back member
    rw [parseWith_joined] at found
    obtain ⟨source, inEntries, found⟩ := List.mem_flatMap.mp found
    obtain ⟨freeName, freeValue, sourceName, sourceValue⟩ := clean source inEntries
    obtain ⟨separator, namePlus, valuePlus⟩ :=
      decoder.parse_cleared sourceName sourceValue ⟨freeName, freeValue⟩ found
    exact ⟨name, value, separator, namePlus, valuePlus, nameFree, valueFree⟩
  constructor
  · refine ⟨fun same => plain ?_, read⟩
    rw [same]
    exact List.Subset.refl entries
  · refine ⟨plain, fun all => ?_⟩
    rw [read all]
    exact List.Subset.refl entries

end Decoder

theorem escape_none {sign : UInt8} (other : sign ≠ percent) (high low : UInt8) :
    escape sign high low = none := if_neg other

theorem unescape_cons {sign : UInt8} (other : sign ≠ percent) (rest : Bytes) :
    unescape (sign :: rest) = spaced sign :: unescape rest := by
  match rest with
  | [] => rfl
  | [_] => rfl
  | high :: low :: rest => rw [unescape, escape_none other]

theorem escapes_cons {sign : UInt8} (other : sign ≠ percent) (rest : Bytes) :
    escapes (sign :: rest) = escapes rest := by
  match rest with
  | [] => rfl
  | [_] => rfl
  | high :: low :: rest => rw [escapes, escape_none other]

theorem escape_separator {separator : UInt8} (apart : separator = ampersand ∨ separator = equals) :
    separator ≠ percent ∧ hexValue separator = none := by
  rcases apart with rfl | rfl
  · exact ⟨by decide, by decide⟩
  · exact ⟨by decide, by decide⟩

theorem unescape_length (text : Bytes) : (unescape text).length + 2 * escapes text = text.length := by
  induction text using unescape.induct with
  | case1 sign high low rest byte escaped ih =>
      rw [unescape, escapes, escaped]
      simp only [List.length_cons]
      omega
  | case2 sign high low rest plain ih =>
      rw [unescape, escapes, plain]
      simp only [List.length_cons] at ih ⊢
      omega
  | case3 text short =>
      match text with
      | [] => rfl
      | [_] => rfl
      | [_, _] => rfl
      | sign :: high :: low :: rest => exact absurd rfl (short sign high low rest)

/-- No escape reaches over a separator. -/
theorem escapes_append {separator : UInt8} (apart : separator = ampersand ∨ separator = equals)
    (front back : Bytes) :
    escapes (front ++ separator :: back) = escapes front + escapes back := by
  obtain ⟨other, notHex⟩ := escape_separator apart
  have low : ∀ sign high, escape sign high separator = none := by
    intro sign high
    simp [escape, notHex]
  have high : ∀ sign low, escape sign separator low = none := by
    intro sign low
    simp [escape, notHex]
  induction front using unescape.induct with
  | case1 sign first second rest byte escaped ih =>
      simp only [List.cons_append, escapes, escaped, ih]
      omega
  | case2 sign first second rest plain ih =>
      simp only [List.cons_append] at ih ⊢
      rw [escapes, plain, escapes, plain]
      exact ih
  | case3 text short =>
      match text with
      | [] => simpa [escapes] using escapes_cons other back
      | [sign] =>
          have tail : escapes (sign :: separator :: back) = escapes (separator :: back) := by
            cases back with
            | nil => rfl
            | cons next back => rw [escapes, high]
          rw [List.singleton_append, tail, escapes_cons other]
          exact (Nat.zero_add _).symm
      | [sign, next] =>
          have tail : escapes (next :: separator :: back) = escapes (separator :: back) := by
            cases back with
            | nil => rfl
            | cons last back => rw [escapes, high]
          change escapes (sign :: next :: separator :: back) = 0 + escapes back
          rw [escapes, low, tail, escapes_cons other, Nat.zero_add]
      | sign :: first :: second :: rest => exact absurd rfl (short sign first second rest)

theorem unescape_free {text : Bytes} (free : escapes text = 0) : unescape text = text.map spaced := by
  induction text using unescape.induct with
  | case1 sign high low rest byte escaped ih =>
      rw [escapes, escaped] at free
      cases free
  | case2 sign high low rest plain ih =>
      rw [escapes, plain] at free
      rw [unescape, plain, ih free]
      rfl
  | case3 text short =>
      match text with
      | [] => rfl
      | [_] => rfl
      | [_, _] => rfl
      | sign :: high :: low :: rest => exact absurd rfl (short sign high low rest)

/-- Reading a text as it is: each escape costs two bytes. -/
theorem unescape_decoder : Decoder unescape fun text => 2 * escapes text where
  length := unescape_length
  apart front back separator apart := by rw [escapes_append apart, Nat.mul_add]
  free text free := unescape_free (by omega)

def hexDigit (n : Nat) : UInt8 := UInt8.ofNat (if n < 10 then 48 + n else 55 + n)

def encodeByte (allowed : UInt8 → Bool) (byte : UInt8) : Bytes :=
  if allowed byte then [byte]
  else [percent, hexDigit (byte.toNat / 16), hexDigit (byte.toNat % 16)]

/-- Every byte that is not allowed is escaped. -/
def percentEncode (allowed : UInt8 → Bool) (text : Bytes) : Bytes :=
  text.flatMap (encodeByte allowed)

/-- The bytes of a query: the signs between and in its parts are kept, the percent sign is not. -/
structure QueryBytes (allowed : UInt8 → Bool) : Prop where
  ampersand : allowed ampersand = true
  equals : allowed equals = true
  plus : allowed plus = true
  percent : allowed percent = false

theorem hexDigit_facts : ∀ n < 16, hexValue (hexDigit n) = some n ∧ hexDigit n ≠ ampersand ∧
    hexDigit n ≠ equals := by decide

theorem escape_hexDigits (byte : UInt8) :
    escape percent (hexDigit (byte.toNat / 16)) (hexDigit (byte.toNat % 16)) = some byte := by
  have bound := byte.toNat_lt
  have high := (hexDigit_facts (byte.toNat / 16) (by omega)).1
  have low := (hexDigit_facts (byte.toNat % 16) (Nat.mod_lt _ (by decide))).1
  rw [escape, if_pos rfl, high, low, Option.bind_some, Option.map_some, Nat.div_add_mod,
    UInt8.ofNat_toNat]

section QueryBytes

variable {allowed : UInt8 → Bool} (query : QueryBytes allowed)

include query

theorem unescape_encodeByte (byte : UInt8) (rest : Bytes) :
    unescape (encodeByte allowed byte ++ rest) = spaced byte :: unescape rest := by
  unfold encodeByte
  split_ifs with kept
  · refine unescape_cons ?_ rest
    rintro rfl
    rw [query.percent] at kept
    cases kept
  · have other : byte ≠ plus := by
      rintro rfl
      exact kept query.plus
    simp only [List.cons_append, List.nil_append, unescape, escape_hexDigits, spaced, if_neg other]

/-- Reading an encoded text: only the pluses are lost. -/
theorem unescape_percentEncode (text : Bytes) :
    unescape (percentEncode allowed text) = text.map spaced := by
  induction text with
  | nil => rfl
  | cons byte text ih =>
      rw [percentEncode, List.flatMap_cons, unescape_encodeByte query]
      exact congrArg (spaced byte :: ·) ih

theorem percentEncode_append {separator : UInt8}
    (apart : separator = ampersand ∨ separator = equals) (front back : Bytes) :
    percentEncode allowed (front ++ separator :: back) =
      percentEncode allowed front ++ separator :: percentEncode allowed back := by
  have kept : encodeByte allowed separator = [separator] := by
    rcases apart with rfl | rfl
    · exact if_pos query.ampersand
    · exact if_pos query.equals
  rw [percentEncode, List.flatMap_append, List.flatMap_cons, kept]
  rfl

end QueryBytes

theorem separator_mem_percentEncode {allowed : UInt8 → Bool} {separator : UInt8}
    (apart : separator = ampersand ∨ separator = equals) {text : Bytes}
    (member : separator ∈ percentEncode allowed text) : separator ∈ text := by
  obtain ⟨byte, inText, here⟩ := List.mem_flatMap.mp member
  have bound := byte.toNat_lt
  have high := (hexDigit_facts (byte.toNat / 16) (by omega)).2
  have low := (hexDigit_facts (byte.toNat % 16) (Nat.mod_lt _ (by decide))).2
  have sign := (escape_separator apart).1
  unfold encodeByte at here
  split_ifs at here
  · rw [List.mem_singleton] at here
    exact here ▸ inText
  · simp only [List.mem_cons, List.not_mem_nil, or_false, sign, false_or] at here
    rcases apart with rfl | rfl
    · exact absurd here (not_or.mpr ⟨Ne.symm high.1, Ne.symm low.1⟩)
    · exact absurd here (not_or.mpr ⟨Ne.symm high.2, Ne.symm low.2⟩)

section Queries

variable {allowed : UInt8 → Bool} (query : QueryBytes allowed)

include query

theorem cut_percentEncode (text : Bytes) : cut (percentEncode allowed text) =
    (percentEncode allowed (cut text).1, percentEncode allowed (cut text).2) := by
  by_cases separated : equals ∈ text
  · obtain ⟨name, value, rfl, clean⟩ := List.eq_append_cons_of_mem separated
    have encodedClean : equals ∉ percentEncode allowed name :=
      fun member => clean (separator_mem_percentEncode (.inr rfl) member)
    rw [percentEncode_append query (.inr rfl), cut_piece encodedClean, cut_piece clean]
  · rw [cut_whole separated,
      cut_whole fun member => separated (separator_mem_percentEncode (.inr rfl) member)]
    rfl

/-- The encoding leaves the cuts where they are. -/
theorem pairs_percentEncode (text : Bytes) : pairs (percentEncode allowed text) =
    (pairs text).map fun pair => (percentEncode allowed pair.1, percentEncode allowed pair.2) := by
  by_cases several : ampersand ∈ text
  · obtain ⟨front, back, rfl, _⟩ := List.eq_append_cons_of_mem several
    rw [percentEncode_append query (.inl rfl), pairs_append, pairs_append,
      pairs_percentEncode front, pairs_percentEncode back, List.map_append]
  · match text with
    | [] => rfl
    | byte :: text =>
        have whole : ampersand ∉ percentEncode allowed (byte :: text) :=
          fun member => several (separator_mem_percentEncode (.inl rfl) member)
        have nonempty : percentEncode allowed (byte :: text) ≠ [] := by
          rw [percentEncode, List.flatMap_cons, encodeByte]
          split_ifs <;> exact List.cons_ne_nil _ _
        rw [pairs_single whole nonempty, pairs_single several (List.cons_ne_nil _ _),
          List.map_singleton, cut_percentEncode query]
termination_by text.length

theorem parse_percentEncode (text : Bytes) :
    parse (percentEncode allowed text) = parseWith (List.map spaced) text := by
  rw [parse, parseWith, pairs_percentEncode query, List.map_map, parseWith]
  refine List.map_congr_left fun pair _ => ?_
  simp only [Function.comp_apply, unescape_percentEncode query]

end Queries

/-- Reading an encoded text: nothing is shortened. -/
theorem spaced_decoder : Decoder (List.map spaced) fun _ => 0 where
  length text := by rw [List.length_map, Nat.add_zero]
  apart _ _ _ _ := rfl
  free _ _ := rfl

end FormUrlencoded
