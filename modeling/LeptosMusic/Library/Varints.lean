import Mathlib.Data.List.Basic
import Mathlib.Algebra.Ring.Nat

/-!
# Base-128 varints and little-endian words

A varint holds a natural number in groups of seven bits, the lowest group first; every byte
but the last has its top bit set. Reading takes at most a given number of groups.
-/
namespace Varints

def encode (n : Nat) : List UInt8 :=
  if n < 128 then [UInt8.ofNat n] else UInt8.ofNat (n % 128 + 128) :: encode (n / 128)
termination_by n

/-- The number in front of the bytes, if its last group is among the first `groups`. -/
def decode : Nat → List UInt8 → Option (Nat × List UInt8)
  | 0, _ => none
  | _, [] => none
  | groups + 1, b :: rest =>
      if b.toNat < 128 then some (b.toNat, rest)
      else (decode groups rest).map fun (n, rest) => (b.toNat % 128 + 128 * n, rest)

theorem encode_small {n : Nat} (small : n < 128) : encode n = [UInt8.ofNat n] := by
  rw [encode, if_pos small]

theorem encode_large {n : Nat} (large : 128 ≤ n) :
    encode n = UInt8.ofNat (n % 128 + 128) :: encode (n / 128) := by
  rw [encode, if_neg (Nat.not_lt.mpr large)]

theorem encode_ne_nil (n : Nat) : encode n ≠ [] := by
  rw [encode]
  split_ifs <;> exact List.cons_ne_nil _ _

theorem encode_length_pos (n : Nat) : 0 < (encode n).length :=
  List.length_pos_iff.mpr (encode_ne_nil n)

/-- `k + 1` groups hold exactly the numbers below `128 ^ (k + 1)`. -/
theorem encode_length_le_iff (n k : Nat) : (encode n).length ≤ k + 1 ↔ n < 128 ^ (k + 1) := by
  induction k generalizing n with
  | zero =>
      rw [encode]
      split_ifs with small
      · simp [small]
      · have := encode_length_pos (n / 128)
        simp only [List.length_cons]
        omega
  | succ k ih =>
      rw [encode]
      split_ifs with small
      · have : 128 ≤ 128 ^ (k + 1 + 1) := Nat.le_self_pow (by omega) 128
        simp only [List.length_singleton]
        omega
      · rw [List.length_cons, Nat.add_le_add_iff_right, ih, Nat.pow_succ 128 (k + 1),
          Nat.div_lt_iff_lt_mul (by decide)]

theorem encode_length_eq {n k : Nat} (low : 128 ^ k ≤ n) (high : n < 128 ^ (k + 1)) :
    (encode n).length = k + 1 := by
  have upper := (encode_length_le_iff n k).mpr high
  cases k with
  | zero =>
      have := encode_length_pos n
      omega
  | succ k =>
      have := (encode_length_le_iff n k).not.mpr (Nat.not_lt.mpr low)
      omega

/-- Numbers that no power of 128 separates take equally many groups. -/
theorem encode_length_congr {m n : Nat} (same : ∀ k, m < 128 ^ (k + 1) ↔ n < 128 ^ (k + 1)) :
    (encode m).length = (encode n).length := by
  have le_iff (k : Nat) : (encode m).length ≤ k + 1 ↔ (encode n).length ≤ k + 1 := by
    rw [encode_length_le_iff, encode_length_le_iff, same]
  obtain ⟨i, atM⟩ := Nat.exists_eq_add_one.mpr (encode_length_pos m)
  obtain ⟨j, atN⟩ := Nat.exists_eq_add_one.mpr (encode_length_pos n)
  have upper := (le_iff j).mpr (Nat.le_of_eq atN)
  have lower := (le_iff i).mp (Nat.le_of_eq atM)
  omega

@[simp] theorem decode_nil (groups : Nat) : decode groups [] = none := by
  cases groups <;> rfl

theorem decode_last {groups : Nat} {b : UInt8} (rest : List UInt8) (last : b.toNat < 128) :
    decode (groups + 1) (b :: rest) = some (b.toNat, rest) := if_pos last

theorem decode_more {groups : Nat} {b : UInt8} (rest : List UInt8) (more : 128 ≤ b.toNat) :
    decode (groups + 1) (b :: rest) =
      (decode groups rest).map fun (n, rest) => (b.toNat % 128 + 128 * n, rest) :=
  if_neg (Nat.not_lt.mpr more)

/-- What was encoded is read back, whatever follows it. -/
theorem decode_encode {n groups : Nat} (enough : (encode n).length ≤ groups) (rest : List UInt8) :
    decode groups (encode n ++ rest) = some (n, rest) := by
  induction groups generalizing n with
  | zero =>
      have := encode_length_pos n
      omega
  | succ groups ih =>
      by_cases small : n < 128
      · have value : (UInt8.ofNat n).toNat = n := by
          rw [UInt8.toNat_ofNat']
          omega
        rw [encode_small small, List.singleton_append, decode_last rest (by rwa [value]), value]
      · have value : (UInt8.ofNat (n % 128 + 128)).toNat = n % 128 + 128 := by
          rw [UInt8.toNat_ofNat']
          omega
        have parts : (n % 128 + 128) % 128 + 128 * (n / 128) = n := by omega
        rw [encode_large (by omega), List.length_cons, Nat.add_le_add_iff_right] at enough
        rw [encode_large (by omega), List.cons_append, decode_more _ (by omega), ih enough, value,
          Option.map_some]
        dsimp only
        rw [parts]

/-- What is read was in front of the rest. -/
theorem decode_sound {groups n : Nat} {bytes rest : List UInt8}
    (read : decode groups bytes = some (n, rest)) :
    ∃ front, bytes = front ++ rest ∧ front ≠ [] ∧ front.length ≤ groups ∧
      n < 128 ^ front.length := by
  induction groups generalizing n bytes with
  | zero => cases bytes <;> cases read
  | succ groups ih =>
      cases bytes with
      | nil => cases read
      | cons b bytes =>
          by_cases last : b.toNat < 128
          · rw [decode_last bytes last] at read
            cases read
            exact ⟨[b], rfl, List.cons_ne_nil _ _, by simp, by simpa using last⟩
          · rw [decode_more bytes (by omega)] at read
            obtain ⟨⟨m, rest'⟩, later, same⟩ := Option.map_eq_some_iff.mp read
            cases same
            obtain ⟨front, rfl, _, short, bound⟩ := ih later
            refine ⟨b :: front, rfl, List.cons_ne_nil _ _, ?_, ?_⟩
            · simpa using short
            · rw [List.length_cons, Nat.pow_succ]
              omega

/-- The lowest `width` bytes, the lowest first. -/
def littleEndian : Nat → Nat → List UInt8
  | 0, _ => []
  | width + 1, n => UInt8.ofNat n :: littleEndian width (n / 256)

def ofLittleEndian : List UInt8 → Nat
  | [] => 0
  | b :: rest => b.toNat + 256 * ofLittleEndian rest

@[simp] theorem littleEndian_length (width n : Nat) : (littleEndian width n).length = width := by
  induction width generalizing n with
  | zero => rfl
  | succ width ih => rw [littleEndian, List.length_cons, ih]

theorem ofLittleEndian_littleEndian {width n : Nat} (fits : n < 256 ^ width) :
    ofLittleEndian (littleEndian width n) = n := by
  induction width generalizing n with
  | zero => simpa [littleEndian, ofLittleEndian, eq_comm] using fits
  | succ width ih =>
      have next : n / 256 < 256 ^ width := by
        rw [Nat.div_lt_iff_lt_mul (by decide), ← Nat.pow_succ]
        exact fits
      rw [littleEndian, ofLittleEndian, ih next, UInt8.toNat_ofNat']
      omega

end Varints
