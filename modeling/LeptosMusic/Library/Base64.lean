import Mathlib.Data.List.Basic

/-!
# Padded base64 over code units

The standard alphabet, groups of four units, at most two pad units and only at the
end. The decoder accepts nothing else; in particular it takes no line breaks. Bits
that the padding stands for are not looked at.
-/
namespace Base64

/-- The unit for a six-bit value. -/
def symbol (v : Nat) : UInt16 :=
  if v < 26 then UInt16.ofNat (v + 65)
  else if v < 52 then UInt16.ofNat (v + 71)
  else if v < 62 then UInt16.ofNat (v - 4)
  else if v = 62 then 43
  else 47

def sextet (u : UInt16) : Option Nat :=
  if 65 ≤ u ∧ u ≤ 90 then some (u.toNat - 65)
  else if 97 ≤ u ∧ u ≤ 122 then some (u.toNat - 71)
  else if 48 ≤ u ∧ u ≤ 57 then some (u.toNat + 4)
  else if u = 43 then some 62
  else if u = 47 then some 63
  else none

def pad : UInt16 := 61

@[simp] theorem sextet_symbol {v : Nat} (h : v < 64) : sextet (symbol v) = some v := by
  revert v
  decide

theorem symbol_ne_pad {v : Nat} (h : v < 64) : symbol v ≠ pad := by
  revert v
  decide

def sextet₀ (a : UInt8) : Nat := a.toNat / 4
def sextet₁ (a b : UInt8) : Nat := a.toNat % 4 * 16 + b.toNat / 16
def sextet₂ (b c : UInt8) : Nat := b.toNat % 16 * 4 + c.toNat / 64
def sextet₃ (c : UInt8) : Nat := c.toNat % 64

theorem sextet₀_lt (a : UInt8) : sextet₀ a < 64 := by
  have := a.toNat_lt
  unfold sextet₀; omega

theorem sextet₁_lt (a b : UInt8) : sextet₁ a b < 64 := by
  have := b.toNat_lt
  unfold sextet₁; omega

theorem sextet₂_lt (b c : UInt8) : sextet₂ b c < 64 := by
  have := c.toNat_lt
  unfold sextet₂; omega

theorem sextet₃_lt (c : UInt8) : sextet₃ c < 64 := by
  unfold sextet₃; omega

def byte₀ (p q : Nat) : UInt8 := UInt8.ofNat (p * 4 + q / 16)
def byte₁ (q r : Nat) : UInt8 := UInt8.ofNat (q % 16 * 16 + r / 4)
def byte₂ (r s : Nat) : UInt8 := UInt8.ofNat (r % 4 * 64 + s)

theorem byte₀_sextets (a b : UInt8) : byte₀ (sextet₀ a) (sextet₁ a b) = a := by
  have := a.toNat_lt
  have := b.toNat_lt
  apply UInt8.toNat.inj
  simp only [byte₀, sextet₀, sextet₁, UInt8.toNat_ofNat']
  omega

theorem byte₁_sextets (a b c : UInt8) : byte₁ (sextet₁ a b) (sextet₂ b c) = b := by
  have := b.toNat_lt
  have := c.toNat_lt
  apply UInt8.toNat.inj
  simp only [byte₁, sextet₁, sextet₂, UInt8.toNat_ofNat']
  omega

theorem byte₂_sextets (b c : UInt8) : byte₂ (sextet₂ b c) (sextet₃ c) = c := by
  have := c.toNat_lt
  apply UInt8.toNat.inj
  simp only [byte₂, sextet₂, sextet₃, UInt8.toNat_ofNat']
  omega

def encode : List UInt8 → List UInt16
  | [] => []
  | [a] => [symbol (sextet₀ a), symbol (sextet₁ a 0), pad, pad]
  | [a, b] => [symbol (sextet₀ a), symbol (sextet₁ a b), symbol (sextet₂ b 0), pad]
  | a :: b :: c :: rest =>
      symbol (sextet₀ a) :: symbol (sextet₁ a b) :: symbol (sextet₂ b c) ::
        symbol (sextet₃ c) :: encode rest

/-- A group without padding. -/
def decodeGroup (w x y z : UInt16) : Option (List UInt8) :=
  match sextet w, sextet x, sextet y, sextet z with
  | some p, some q, some r, some s => some [byte₀ p q, byte₁ q r, byte₂ r s]
  | _, _, _, _ => none

/-- The last group, the only one that may be padded. -/
def decodeLast (w x y z : UInt16) : Option (List UInt8) :=
  if z = pad then
    if y = pad then
      match sextet w, sextet x with
      | some p, some q => some [byte₀ p q]
      | _, _ => none
    else
      match sextet w, sextet x, sextet y with
      | some p, some q, some r => some [byte₀ p q, byte₁ q r]
      | _, _, _ => none
  else decodeGroup w x y z

def decode : List UInt16 → Option (List UInt8)
  | [] => some []
  | [w, x, y, z] => decodeLast w x y z
  | w :: x :: y :: z :: rest =>
      match decodeGroup w x y z, decode rest with
      | some head, some tail => some (head ++ tail)
      | _, _ => none
  | _ => none

theorem decodeGroup_symbols (a b c : UInt8) :
    decodeGroup (symbol (sextet₀ a)) (symbol (sextet₁ a b)) (symbol (sextet₂ b c))
      (symbol (sextet₃ c)) = some [a, b, c] := by
  simp only [decodeGroup, sextet_symbol, sextet₀_lt, sextet₁_lt, sextet₂_lt, sextet₃_lt,
    byte₀_sextets, byte₁_sextets, byte₂_sextets]

theorem decodeLast_symbols (a b c : UInt8) :
    decodeLast (symbol (sextet₀ a)) (symbol (sextet₁ a b)) (symbol (sextet₂ b c))
      (symbol (sextet₃ c)) = some [a, b, c] := by
  rw [decodeLast, if_neg (symbol_ne_pad (sextet₃_lt c)), decodeGroup_symbols]

theorem decodeLast_one (a : UInt8) :
    decodeLast (symbol (sextet₀ a)) (symbol (sextet₁ a 0)) pad pad = some [a] := by
  simp only [decodeLast, if_true, sextet_symbol, sextet₀_lt, sextet₁_lt, byte₀_sextets]

theorem decodeLast_two (a b : UInt8) :
    decodeLast (symbol (sextet₀ a)) (symbol (sextet₁ a b)) (symbol (sextet₂ b 0)) pad =
      some [a, b] := by
  simp only [decodeLast, if_true, if_neg (symbol_ne_pad (sextet₂_lt b 0)), sextet_symbol,
    sextet₀_lt, sextet₁_lt, sextet₂_lt, byte₀_sextets, byte₁_sextets]

theorem encode_length (bytes : List UInt8) :
    (encode bytes).length = 4 * ((bytes.length + 2) / 3) := by
  induction bytes using encode.induct with
  | case1 => simp [encode]
  | case2 a => simp [encode]
  | case3 a b => simp [encode]
  | case4 a b c rest ih =>
      simp only [encode, List.length_cons, ih]
      omega

theorem encode_length_mod (bytes : List UInt8) : (encode bytes).length % 4 = 0 := by
  rw [encode_length]
  omega

/-- A group before a nonempty text is decoded on its own. -/
theorem decode_group_append {w x y z : UInt16} {head : List UInt8} {rest : List UInt16}
    (nonempty : rest ≠ []) (h : decodeGroup w x y z = some head) :
    decode (w :: x :: y :: z :: rest) = (decode rest).map (head ++ ·) := by
  cases rest with
  | nil => exact absurd rfl nonempty
  | cons u us =>
      simp only [decode, h]
      cases decode (u :: us) <;> rfl

theorem encode_ne_nil {bytes : List UInt8} (h : bytes ≠ []) : encode bytes ≠ [] := by
  intro empty
  have := encode_length bytes
  rw [empty, List.length_nil] at this
  have := List.length_pos_iff.mpr h
  omega

theorem decode_encode (bytes : List UInt8) : decode (encode bytes) = some bytes := by
  induction bytes using encode.induct with
  | case1 => rfl
  | case2 a => exact decodeLast_one a
  | case3 a b => exact decodeLast_two a b
  | case4 a b c rest ih =>
      rw [encode]
      by_cases last : rest = []
      · subst last
        exact decodeLast_symbols a b c
      · rw [decode_group_append (encode_ne_nil last) (decodeGroup_symbols a b c), ih]
        rfl

theorem decodeGroup_length {w x y z : UInt16} {bytes : List UInt8}
    (h : decodeGroup w x y z = some bytes) : bytes.length = 3 := by
  unfold decodeGroup at h
  split at h
  · cases h; rfl
  · cases h

theorem decodeLast_length {w x y z : UInt16} {bytes : List UInt8}
    (h : decodeLast w x y z = some bytes) : bytes.length ≤ 3 := by
  unfold decodeLast at h
  split_ifs at h
  · split at h
    · cases h; simp
    · cases h
  · split at h
    · cases h; simp
    · cases h
  · exact Nat.le_of_eq (decodeGroup_length h)

/-- At most three bytes come out of four units. -/
theorem decode_length {text : List UInt16} {bytes : List UInt8}
    (h : decode text = some bytes) : 4 * bytes.length ≤ 3 * text.length := by
  induction text using decode.induct generalizing bytes with
  | case1 => cases h; simp
  | case2 w x y z =>
      have := decodeLast_length h
      simp only [List.length_cons, List.length_nil]
      omega
  | case3 w x y z rest _ head tail hTail hHead ih =>
      simp only [decode, hHead, hTail, Option.some.injEq] at h
      have := decodeGroup_length hHead
      have := ih hTail
      subst h
      simp only [List.length_append, List.length_cons]
      omega
  | case4 => simp_all [decode]
  | case5 => simp_all [decode]

/-- The symbols of an encoding. -/
def unpadded : List UInt8 → List UInt16
  | [] => []
  | [a] => [symbol (sextet₀ a), symbol (sextet₁ a 0)]
  | [a, b] => [symbol (sextet₀ a), symbol (sextet₁ a b), symbol (sextet₂ b 0)]
  | a :: b :: c :: rest =>
      symbol (sextet₀ a) :: symbol (sextet₁ a b) :: symbol (sextet₂ b c) ::
        symbol (sextet₃ c) :: unpadded rest

/-- An encoding is its symbols and what completes the last group. -/
theorem encode_eq_unpadded (bytes : List UInt8) :
    encode bytes = unpadded bytes ++ List.replicate ((3 - bytes.length % 3) % 3) pad := by
  induction bytes using encode.induct with
  | case1 => rfl
  | case2 a => rfl
  | case3 a b => rfl
  | case4 a b c rest ih =>
      have same : (a :: b :: c :: rest).length % 3 = rest.length % 3 := by
        simp only [List.length_cons]
        omega
      rw [encode, ih, same]
      rfl

theorem unpadded_length (bytes : List UInt8) :
    (unpadded bytes).length = (4 * bytes.length + 2) / 3 := by
  induction bytes using encode.induct with
  | case1 => rfl
  | case2 a => simp [unpadded]
  | case3 a b => simp [unpadded]
  | case4 a b c rest ih =>
      simp only [unpadded, List.length_cons, ih]
      omega

theorem pad_notMem_unpadded (bytes : List UInt8) : pad ∉ unpadded bytes := by
  induction bytes using encode.induct with
  | case1 => exact List.not_mem_nil
  | case2 a =>
      simp only [unpadded, List.mem_cons, List.not_mem_nil, or_false, not_or]
      exact ⟨(symbol_ne_pad (sextet₀_lt a)).symm, (symbol_ne_pad (sextet₁_lt a 0)).symm⟩
  | case3 a b =>
      simp only [unpadded, List.mem_cons, List.not_mem_nil, or_false, not_or]
      exact ⟨(symbol_ne_pad (sextet₀_lt a)).symm, (symbol_ne_pad (sextet₁_lt a b)).symm,
        (symbol_ne_pad (sextet₂_lt b 0)).symm⟩
  | case4 a b c rest ih =>
      simp only [unpadded, List.mem_cons, not_or]
      exact ⟨(symbol_ne_pad (sextet₀_lt a)).symm, (symbol_ne_pad (sextet₁_lt a b)).symm,
        (symbol_ne_pad (sextet₂_lt b c)).symm, (symbol_ne_pad (sextet₃_lt c)).symm, ih⟩

/-- Only whole groups are decoded. -/
theorem decode_length_mod {text : List UInt16} {bytes : List UInt8}
    (h : decode text = some bytes) : text.length % 4 = 0 := by
  induction text using decode.induct generalizing bytes with
  | case1 => rfl
  | case2 w x y z => simp
  | case3 w x y z rest _ head tail hTail hHead ih =>
      have := ih hTail
      simp only [List.length_cons]
      omega
  | case4 => simp_all [decode]
  | case5 => simp_all [decode]

/-- The pad characters that a text without them lacks. -/
def completed (text : List UInt16) : List UInt16 :=
  text ++ List.replicate ((4 - text.length % 4) % 4) pad

theorem completed_unpadded (bytes : List UInt8) : completed (unpadded bytes) = encode bytes := by
  have lacking : (4 - (unpadded bytes).length % 4) % 4 = (3 - bytes.length % 3) % 3 := by
    have groups := Nat.div_add_mod bytes.length 3
    have remainder : bytes.length % 3 = 0 ∨ bytes.length % 3 = 1 ∨ bytes.length % 3 = 2 := by omega
    rw [unpadded_length]
    rcases remainder with remainder | remainder | remainder <;> rw [remainder] at groups ⊢ <;> omega
  rw [completed, lacking, encode_eq_unpadded]

end Base64
