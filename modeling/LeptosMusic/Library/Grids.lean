import Mathlib.Data.List.Nodup

/-!
# Grids of threads

The places of a row that is cut into groups of one size, and of a grid made of two such rows.
-/
namespace Grids

/-- The places of a row of `groups` groups with `size` places each. -/
def tiled (groups size : Nat) : List Nat :=
  (List.range groups).flatMap fun group => (List.range size).map (group * size + ·)

/-- All pairs of a column and a row, once for each plane. -/
def planes (columns rows : List Nat) (depth : Nat) : List (Nat × Nat) :=
  (List.range depth).flatMap fun _ => rows.flatMap fun y => columns.map fun x => (x, y)

/-- A place is in the row of groups when it is below their total: its group is the quotient,
its place there the remainder. -/
@[simp] theorem mem_tiled {groups size place : Nat} :
    place ∈ tiled groups size ↔ place < groups * size := by
  simp only [tiled, List.mem_flatMap, List.mem_map, List.mem_range]
  constructor
  · rintro ⟨group, below, offset, inside, rfl⟩
    calc group * size + offset < group * size + size := Nat.add_lt_add_left inside _
      _ = (group + 1) * size := (Nat.succ_mul group size).symm
      _ ≤ groups * size := Nat.mul_le_mul_right size below
  · intro below
    have inhabited : 0 < size := by
      rcases Nat.eq_zero_or_pos size with rfl | inhabited
      · omega
      · exact inhabited
    refine ⟨place / size, Nat.div_lt_of_lt_mul (by rwa [Nat.mul_comm]), place % size,
      Nat.mod_lt _ inhabited, ?_⟩
    rw [Nat.mul_comm]
    exact Nat.div_add_mod place size

@[simp] theorem mem_planes {columns rows : List Nat} {depth x y : Nat} :
    (x, y) ∈ planes columns rows depth ↔ 0 < depth ∧ x ∈ columns ∧ y ∈ rows := by
  simp only [planes, List.mem_flatMap, List.mem_map, List.mem_range, Prod.mk.injEq]
  constructor
  · rintro ⟨plane, below, row, inRows, column, inColumns, rfl, rfl⟩
    exact ⟨Nat.zero_lt_of_lt below, inColumns, inRows⟩
  · rintro ⟨deep, inColumns, inRows⟩
    exact ⟨0, deep, y, inRows, x, inColumns, rfl, rfl⟩

/-- In one plane no pair comes twice. -/
theorem nodup_planes_one {columns rows : List Nat} (apart : columns.Nodup) (apart' : rows.Nodup) :
    (planes columns rows 1).Nodup := by
  have single : planes columns rows 1 = rows.flatMap fun y => columns.map fun x => (x, y) :=
    List.append_nil _
  rw [single, List.nodup_flatMap]
  refine ⟨fun y _ => apart.map fun x x' same => (Prod.mk.inj same).1, apart'.imp fun {y y'} other => ?_⟩
  intro pair first second
  obtain ⟨x, _, rfl⟩ := List.mem_map.mp first
  obtain ⟨x', _, same⟩ := List.mem_map.mp second
  exact other (Prod.mk.inj same).2.symm

/-- What whole groups cover of a row is the row without its remainder. -/
theorem div_mul_eq_sub_mod (length size : Nat) : length / size * size = length - length % size := by
  have parts := Nat.div_add_mod length size
  rw [Nat.mul_comm] at parts
  omega

/-- Whole groups that are not empty cover a row exactly when their size divides its length. -/
theorem div_mul_covers {length size : Nat} :
    length ≤ length / size * size ↔ size ∣ length := by
  rw [Nat.dvd_iff_mod_eq_zero, div_mul_eq_sub_mod]
  have remainder := Nat.mod_le length size
  omega

/-- One grid holds another when it does along both axes, unless the other is empty. -/
theorem holds_iff {width height columns rows : Nat} :
    (∀ x y, x < width → y < height → x < columns ∧ y < rows) ↔
      width = 0 ∨ height = 0 ∨ width ≤ columns ∧ height ≤ rows := by
  constructor
  · intro holds
    by_cases empty : width = 0 ∨ height = 0
    · exact empty.elim .inl fun flat => .inr (.inl flat)
    · obtain ⟨wide, high⟩ := not_or.mp empty
      have corner := holds (width - 1) (height - 1) (by omega) (by omega)
      exact .inr (.inr (by omega))
  · rintro (rfl | rfl | ⟨wide, high⟩) x y left below
    · exact absurd left (Nat.not_lt_zero x)
    · exact absurd below (Nat.not_lt_zero y)
    · exact ⟨Nat.lt_of_lt_of_le left wide, Nat.lt_of_lt_of_le below high⟩

end Grids
